import AiBuddy.Conversation.Session

/-!
# Transcript chunks

The operations of the repository on the chunks of a conversation and on its two counters
(`services/conversation/repository.py:137`, `:204`, `:266`, `:426`, `:505`, `:549`), and which
failures of a transcription are final (`services/conversation/stt_failure.py`). A fenced write
takes the lease of the caller as an argument, and a lease check its outcome.
-/

namespace AiBuddy.Conversation.Session

open Program Queue.JobLease Queue.MongoFence

abbrev Operating (α : Type) := Raising (Remote Mongo.Error Command) StatusError α

def sent {α : Type} (command : Command α) : Operating α := send (.write ∘ .mongo) command

structure Holding where
  /-- The outcome of `_guard_lease`. -/
  guard : Except WriteError Unit := .ok ()
  object : Option LeaseObject := none

def Holding.guardLease (holding : Holding) : Operating Unit :=
  ExceptT.mk (.ret (holding.guard.mapError .write))

/-- `fenced_update_one` and `fenced_find_one_and_update`, `mongo_fence.py:100`, for a command
that takes a token. Where no document has matched, `probe` looks for a newer fence. -/
def Holding.fenced {β γ : Type} (holding : Holding)
    (command : Option Int → Command (Option β)) (probe : Command (Option γ))
    (fence : γ → Option Int) : Operating (Option β) :=
  match leaseFenceToken holding.object with
  | .error error => throw (.write error)
  | .ok none => sent (command none)
  | .ok (some token) => do
    match ← sent (command (some token)) with
    | some document => return some document
    | none =>
      let existing ← sent probe
      if existing.isSome && (existing.bind fence).getD 0 > token then
        throw (.write (.staleOwnership
          ((holding.object.map (·.lease.logicalKey)).getD "job") "stale_fence"))
      else return none

def Holding.updateChunk (holding : Holding) (sequence : Nat) (accepts : Chunk → Bool)
    (change : Chunk → Chunk) : Operating (Option Chunk) :=
  holding.fenced (.updateChunk sequence accepts change) .anyChunk Chunk.processingFence

def Holding.updateConversation (holding : Holding) (accepts : ConversationDocument → Bool)
    (change : ConversationDocument → ConversationDocument) :
      Operating (Option ConversationDocument) :=
  holding.fenced (.updateConversation accepts change) .getConversation
    ConversationDocument.processingFence

def Holding.updateWindow (holding : Holding) (windowId : Nat) (accepts : Window → Bool)
    (change : Window → Window) : Operating (Option Window) :=
  holding.fenced (.updateWindow windowId accepts change) (.getWindow windowId)
    Window.processingFence

/-- `AudioChunkMetadata`, with what the insert into `audio_chunks` has come to. -/
structure AudioChunk where
  chunkId : String
  sequenceNumber : Nat
  filePath : Option String := none
  durationMs : Option Int := none
  inserted : Bool := true
  /-- The conversation has the user and the space of the chunk. -/
  owned : Bool := true
  now : Int

def recordAudioChunk (metadata : AudioChunk) : Operating Bool := do
  let _ ← sent (.updateConversation
    (fun conversation => metadata.owned &&
      conversation.status ∈ [.recording, .stopRequested, .waitingForTranscripts])
    (fun conversation =>
      { conversation with
        receivedAudioChunkCount :=
          conversation.receivedAudioChunkCount + if metadata.inserted then 1 else 0
        updatedAt := metadata.now })
    none)
  let _ ← sent (.insertChunk
    { chunkId := metadata.chunkId
      sequenceNumber := metadata.sequenceNumber
      audioFilePath := metadata.filePath
      endTimeMs := metadata.durationMs
      updatedAt := metadata.now })
  return metadata.inserted

/-- `sttStatus` is not COMPLETED. -/
def Chunk.open? (chunk : Chunk) : Bool := chunk.sttStatus ≠ .completed

/-- The filter of `mark_transcript_chunk_processing` and `fail_transcript_chunk`. -/
def Chunk.retryable (chunk : Chunk) : Bool := chunk.open? && !chunk.terminal

def markTranscriptChunkProcessing (sequence : Nat) (now : Int) : Operating Bool := do
  let result ← sent (.updateChunk sequence Chunk.retryable
    (fun chunk => { chunk with sttStatus := .processing, updatedAt := now }) none)
  return result.isSome

/-- One call of `complete_transcript_chunk`: the lease as each of its writes finds it. -/
structure Completion where
  sequence : Nat
  rawText : String
  endTimeMs : Option Int := none
  writing : Holding := { }
  counting : Holding := { }
  now : Int

/-- The update of `complete_transcript_chunk`. -/
def Completion.change (request : Completion) (chunk : Chunk) : Chunk :=
  { chunk with
    rawText := some request.rawText
    normalizedText := some request.rawText
    sttStatus := .completed
    lastError := none
    failureStage := none
    failureType := none
    terminal := false
    exclusionReason := none
    endTimeMs := request.endTimeMs.or chunk.endTimeMs
    updatedAt := request.now
    sttAttempts := chunk.sttAttempts + 1 }

/-- The counter of `complete_transcript_chunk`. -/
def Completion.count (request : Completion) (conversation : ConversationDocument) :
    ConversationDocument :=
  { conversation with
    completedTranscriptChunkCount := conversation.completedTranscriptChunkCount + 1
    updatedAt := request.now }

def completeTranscriptChunk (request : Completion) : Operating Unit := do
  request.writing.guardLease
  let result ← request.writing.updateChunk request.sequence Chunk.open? request.change
  if result.isSome then
    let _ ← request.counting.updateConversation (fun _ => true) request.count
  else return ()

structure Failure where
  sequence : Nat
  error : String
  failureStage : Option String := none
  failureType : Option String := none
  retryCount : Option Nat := none
  terminal : Bool := false
  now : Int

/-- The update of `fail_transcript_chunk`. -/
def Failure.change (request : Failure) (chunk : Chunk) : Chunk :=
  { chunk with
    sttStatus := .failed
    lastError := some (Text.take 200
      (if request.error ≠ "" then request.error else orText request.failureType "stt_failed"))
    failureStage :=
      if request.failureStage.getD "" ≠ "" then request.failureStage else chunk.failureStage
    failureType :=
      if request.failureType.getD "" ≠ "" then request.failureType else chunk.failureType
    retryCount := request.retryCount.getD chunk.retryCount
    terminal := request.terminal
    exclusionReason :=
      if request.terminal then some TranscriptExclusionReason.sttFailed.value
      else chunk.exclusionReason
    updatedAt := request.now
    sttAttempts := chunk.sttAttempts + 1 }

/-- The counter of `fail_transcript_chunk`. -/
def Failure.count (request : Failure) (conversation : ConversationDocument) :
    ConversationDocument :=
  { conversation with
    failedTranscriptChunkCount := conversation.failedTranscriptChunkCount + 1
    updatedAt := request.now }

/-- What `fail_transcript_chunk` does with the chunk that it has read. -/
def failExisting (request : Failure) (existing : Chunk) : Operating Bool := do
  if existing.sttStatus = .completed ∨ (existing.sttStatus = .failed ∧ existing.terminal) then
    return false
  else
    match ← sent (.updateChunk request.sequence Chunk.retryable request.change none) with
    | none => return false
    | some _ =>
      if existing.sttStatus ≠ .failed then
        let _ ← sent (.updateConversation (fun _ => true) request.count none)
        return true
      else return true

def failTranscriptChunk (request : Failure) : Operating Bool := do
  match ← sent (.getChunk request.sequence) with
  | none => return false
  | some existing => failExisting request existing

/-- A chunk that `reclaim_stale_stt_chunks` may take back. -/
def Chunk.stale (staleBefore : Int) (chunk : Chunk) : Bool :=
  chunk.sttStatus = .processing && chunk.updatedAt ≤ staleBefore

/-- The loop of `reclaim_stale_stt_chunks`, over the chunks that the cursor
has found. -/
def reclaimEach (staleBefore now : Int) : List Nat → Operating (List Chunk)
  | [] => return []
  | sequence :: rest => do
    let result ← sent (.updateChunk sequence (Chunk.stale staleBefore)
      (fun chunk =>
        { chunk with
          sttStatus := .pending
          lastError := some "stale STT processing reclaimed"
          updatedAt := now })
      none)
    let reclaimed ← reclaimEach staleBefore now rest
    return result.toList ++ reclaimed

def reclaimStaleSttChunks (staleBefore now : Int) : Operating (List Chunk) := do
  let chunks ← sent .listChunks
  reclaimEach staleBefore now
    ((chunks.filter fun chunk => chunk.stale staleBefore && !chunk.terminal).map
      Chunk.sequenceNumber)

def containsAny (normalized : String) (markers : List String) : Bool :=
  markers.any fun marker => Text.contains marker normalized

def permanentTypeMarkers : List String :=
  ["s3_object_missing", "s3_permanent", "corrupt_audio", "unsupported_audio", "permanent_audio",
    "retry_exhausted"]

def s3MissingMarkers : List String :=
  ["nosuchkey", "no such key", "nosuchbucket", "no such bucket", "object does not exist",
    "object missing", "s3 permanent error: 404", "s3 permanent error: nosuchkey",
    "s3 permanent error: nosuchbucket"]

def corruptMarkers : List String := ["corrupt", "corrupted"]

def unsupportedMarkers : List String :=
  ["unsupported audio", "unsupported data", "unsupported file", "unsupported media",
    "unsupported format", "invalid audio", "audio format"]

/-- The markers of `is_permanent_audio_message`, `services/speech/errors.py:42`. -/
def permanentAudioMarkers : List String :=
  ["audio format", "audio duration exceeds", "corrupt", "corrupted", "empty audio",
    "failed to read the file", "file is empty", "file too large", "invalid audio",
    "missing or empty", "no audio", "over 30 seconds", "unsupported file", "unsupported media",
    "unsupported audio", "unsupported data", "unprocessable"]

/-- `is_permanent_stt_failure(error)`, for a text or none: no class of
exception is known of it, and the retries are not said to be exhausted. -/
def isPermanentSttFailure (error : Option String) : Bool :=
  let normalized := Text.lower (error.getD "")
  containsAny normalized permanentTypeMarkers || containsAny normalized s3MissingMarkers ||
    (containsAny normalized ["s3"] && containsAny normalized ["404"]) ||
    containsAny normalized permanentAudioMarkers || containsAny normalized corruptMarkers ||
    containsAny normalized unsupportedMarkers

/-- The failure types of `stt_failure.py:155`. -/
def terminalFailureTypes : List String :=
  ["S3_OBJECT_MISSING", "S3_PERMANENT", "CORRUPT_AUDIO", "UNSUPPORTED_AUDIO", "PERMANENT_AUDIO",
    "MISSING_UPLOAD", "RETRY_EXHAUSTED"]

def isTerminalFailedChunk (maxRetries : Nat) (chunk : Chunk) : Bool :=
  chunk.sttStatus = .failed &&
    (chunk.terminal || chunk.failureType.getD "" ∈ terminalFailureTypes ||
      isPermanentSttFailure chunk.lastError ||
      decide (maxRetries ≤ if chunk.sttAttempts ≠ 0 then chunk.sttAttempts else chunk.retryCount))

def listTranscriptChunksInRange (sequenceStart sequenceEnd : Nat) : Operating (List Chunk) := do
  let chunks ← sent .listChunks
  return chunks.filter fun chunk =>
    chunk.sttStatus = .completed && sequenceStart ≤ chunk.sequenceNumber &&
      chunk.sequenceNumber ≤ sequenceEnd

/-- `through is None or int(chunk.sequenceNumber) <= through`. -/
def Chunk.within (through : Option Int) (chunk : Chunk) : Bool :=
  through.all fun last => (chunk.sequenceNumber : Int) ≤ last

/-- The chunks that `count_unwindowed_non_empty_transcripts` counts. -/
def Chunk.counts (through : Option Int) (chunk : Chunk) : Bool :=
  chunk.unwindowed && chunk.within through && chunk.useful && !chunk.excluded

def countUnwindowedNonEmptyTranscripts (through : Option Int) : Operating Nat := do
  let chunks ← sent .listChunks
  return chunks.countP (Chunk.counts through)

/-- `processingStatus` is UNPROCESSED. -/
def Chunk.unprocessed (chunk : Chunk) : Bool := chunk.processingStatus = .unprocessed

/-- `update_many` over chunks that are UNPROCESSED: one write for each. -/
def updateEach (change : Chunk → Chunk) : List Nat → Operating Unit
  | [] => return ()
  | sequence :: rest => do
    let _ ← sent (.updateChunk sequence Chunk.unprocessed change none)
    updateEach change rest

def Chunk.exclude (reason : TranscriptExclusionReason) (now : Int) (chunk : Chunk) : Chunk :=
  { chunk with
    processingStatus := .processed
    exclusionReason := some reason.value
    updatedAt := now }

def markTranscriptsExcluded (sequenceNumbers : List Nat) (reason : TranscriptExclusionReason)
    (now : Int) : Operating Unit :=
  updateEach (Chunk.exclude reason now) sequenceNumbers

def Chunk.assign (windowId : Nat) (now : Int) (chunk : Chunk) : Chunk :=
  { chunk with
    processingStatus := .processed
    processingWindowId := some windowId
    updatedAt := now }

def createConversationWindow (window : Window) (sequenceNumbers skippedSequenceNumbers : List Nat)
    (now : Int) : Operating Window := do
  let saved ← sent (.insertWindow { window with updatedAt := now })
  updateEach (Chunk.assign saved.id now) sequenceNumbers
  markTranscriptsExcluded skippedSequenceNumbers .emptyTranscript now
  return saved

/-- `complete_window(window_id, ...)`, for a window without a result. -/
def completeWindow (holding : Holding) (windowId : Nat) (artifactPersistenceOk : Bool)
    (now : Int) : Operating Unit := do
  holding.guardLease
  let _ ← holding.updateWindow windowId (fun _ => true) fun window =>
    { window with
      status := .completed
      artifactPersistenceOk := artifactPersistenceOk
      extractionSkipped := true
      updatedAt := now }

def failWindow (windowId : Nat) (error : String) (now : Int) : Operating Unit := do
  let _ ← sent (.updateWindow windowId (fun _ => true)
    (fun window =>
      { window with status := .failed, lastError := some (Text.take 1000 error), updatedAt := now })
    none)

def markWindowQueued (windowId : Nat) (now : Int) : Operating Unit := do
  let _ ← sent (.updateWindow windowId (fun _ => true)
    (fun window => { window with queuedAt := some now, updatedAt := now }) none)

end AiBuddy.Conversation.Session
