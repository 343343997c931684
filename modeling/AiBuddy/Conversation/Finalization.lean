import AiBuddy.Conversation.Incremental

/-!
# Finalization (`services/conversation/finalization.py`)

`ConversationFinalizationCoordinator.finalize`, and `ConversationProcessingWorkflow.run`
(`services/conversation/workflow.py:45`) as far as its drain guard. Of the accounting only what
decides or is stored for reading is kept. The clock stands still during one call.
-/

namespace AiBuddy.Conversation.Session

open Program Queue.MongoFence

def terminalConversationStatuses : List ConversationStatus :=
  [.readyForProcessing, .validating, .completed, .processing]

/-- `transcript.py:171`. -/
def detectMissingSequences (present : List Nat) (expectedLast : Int) (firstSequence : Nat) :
    List Nat :=
  (List.range' firstSequence (expectedLast + 1 - firstSequence).toNat).filter (· ∉ present)

def missingSequencesAreTerminal (settings : Settings) (now : Int)
    (conversation : ConversationDocument) :
    Bool :=
  let stoppedAt :=
    if conversation.stoppedAt = none ∧ conversation.meetingExtension = true ∧
        conversation.expectedLastSequence ≠ none then
      some conversation.updatedAt
    else conversation.stoppedAt
  let timeout :=
    if conversation.meetingExtension then settings.meetingExtensionMissingSequenceTimeoutSeconds
    else settings.finalizationMissingSequenceTimeoutSeconds
  stoppedAt.any fun stopped => (timeout : Int) * 1000 ≤ now - stopped

structure Accounting where
  expectedSequences : Nat := 0
  missingSequences : List Nat
  permanentFailures : Nat
  terminalSequences : Nat := 0
  pendingSequences : Nat := 0
  retryingSequences : Nat := 0
  validUnwindowed : Nat

/-- `chunk.sttStatus in {STTStatus.PENDING, STTStatus.PROCESSING}`. -/
def Chunk.waiting (chunk : Chunk) : Bool :=
  chunk.sttStatus = .pending || chunk.sttStatus = .processing

/-- `retryable_failed`, for a sequence number that has one chunk. -/
def Chunk.retryableFailed (settings : Settings) (chunk : Chunk) : Bool :=
  chunk.sttStatus = .failed && !isTerminalFailedChunk settings.workerMaxRetries chunk

structure Readiness where
  skippable : List Nat
  unresolved : Bool
  accounting : Accounting

def sessionReadiness (settings : Settings) (now : Int) (conversation : ConversationDocument)
    (expectedLast : Int) (chunks : List Chunk) : Readiness :=
  let missing := detectMissingSequences (chunks.map Chunk.sequenceNumber) expectedLast
    conversation.firstSequence
  let missingTimeout := missingSequencesAreTerminal settings now conversation
  let permanentFailures := chunks.countP (isTerminalFailedChunk settings.workerMaxRetries) +
    if missingTimeout then missing.length else 0
  let successful := chunks.countP fun chunk => chunk.sttStatus = .completed && chunk.useful
  let empty := chunks.countP fun chunk => chunk.sttStatus = .completed && !chunk.useful
  { skippable :=
      (chunks.filter (Chunk.derivedSkippable settings)).map Chunk.sequenceNumber ++
        if missingTimeout then missing else []
    unresolved :=
      chunks.any Chunk.waiting || chunks.any (Chunk.retryableFailed settings) ||
        (!missing.isEmpty && !missingTimeout)
    accounting :=
      { expectedSequences := (expectedLast - conversation.firstSequence + 1).toNat
        missingSequences := missing
        permanentFailures
        terminalSequences := successful + empty + permanentFailures
        pendingSequences := (chunks.countP fun chunk => chunk.sttStatus = .pending) +
          chunks.countP fun chunk => chunk.sttStatus = .processing
        retryingSequences := chunks.countP (Chunk.retryableFailed settings)
        validUnwindowed :=
          chunks.countP fun chunk =>
            chunk.sttStatus = .completed && chunk.useful && chunk.processingWindowId = none &&
              !chunk.excluded } }

/-- `repository.py:54`. -/
def transition (holding : Holding) (target : ConversationStatus)
    (updates : ConversationDocument → ConversationDocument) (now : Int) :
      Operating ConversationDocument := do
  holding.guardLease
  match ← sent .getConversation with
  | none => throw (.valueError "Conversation not found")
  | some current =>
    if Edge current.status target then
      let result ← holding.updateConversation
        (fun conversation => conversation.status = current.status)
        fun conversation => { updates conversation with status := target, updatedAt := now }
      match result with
      | none => throw (.valueError "Conversation transition conflict")
      | some saved => return saved
    else throw (.valueError "Invalid conversation transition")

def safeTransition (holding : Holding) (target : ConversationStatus)
    (updates : ConversationDocument → ConversationDocument) (now : Int) : Operating Bool := do
  match ← sent .getConversation with
  | none => return false
  | some current =>
    if current.status ∈ terminalConversationStatuses then return false
    else if current.status = target then
      let _ ← sent (.updateConversation (fun conversation => conversation.status = current.status)
        (fun conversation => { updates conversation with updatedAt := now }) none)
      return false
    else
      match ← attempt (transition holding target updates now) with
      | .ok _ => return true
      | .error (.valueError _) => return false
      | .error error => throw error

def persistAccounting (now : Int) : Operating Unit := do
  let _ ← sent (.updateConversation (fun _ => true)
    (fun conversation => { conversation with updatedAt := now }) none)

def isLostSttJob (settings : Settings) (staleBefore : Int) (chunk : Chunk) : Bool :=
  chunk.sttStatus ≠ .processing && chunk.sttStatus ≠ .completed &&
    !isTerminalFailedChunk settings.workerMaxRetries chunk &&
    !(chunk.sttStatus = .failed && chunk.sttAttempts ≥ settings.workerMaxRetries) &&
    chunk.updatedAt ≤ staleBefore

def emitEach (name : String) : Nat → Operating Unit
  | 0 => return ()
  | count + 1 => do
    sent (.emit name)
    emitEach name count

/-- `_requeue_lost_stt(conversation_id, chunks)`. Whether the audio of a
chunk can be found is an argument. -/
def requeueLostStt (settings : Settings) (audioFound : Chunk → Bool) (now : Int)
    (chunks : List Chunk) : Operating Nat := do
  let staleBefore := now - settings.sttProcessingStaleTimeoutSeconds * 1000
  let reclaimed ← reclaimStaleSttChunks staleBefore now
  let retryIds := reclaimed.map Chunk.sequenceNumber
  let lost := chunks.filter fun chunk =>
    chunk.sequenceNumber ∉ retryIds && isLostSttJob settings staleBefore chunk
  let retryable := (reclaimed ++ lost).filter fun chunk =>
    !isTerminalFailedChunk settings.workerMaxRetries chunk && audioFound chunk
  emitEach "stt.requested" retryable.length
  return retryable.length

/-- A window that `reclaim_stale_processing_windows` may take back. -/
def Window.stale (staleBefore : Int) (window : Window) : Bool :=
  window.status = .processing && window.updatedAt ≤ staleBefore

/-- The loop of `reclaim_stale_processing_windows`, `repository.py:486`. -/
def reclaimWindows (staleBefore now : Int) : List Nat → Operating Unit
  | [] => return ()
  | windowId :: rest => do
    let _ ← sent (.updateWindow windowId (Window.stale staleBefore)
      (fun window =>
        { window with
          status := .pending
          queuedAt := none
          lastError := some "stale processing reclaimed"
          updatedAt := now })
      none)
    reclaimWindows staleBefore now rest

/-- `repository.py:473`. -/
def reclaimStaleProcessingWindows (staleBefore now : Int) : Operating Unit := do
  let windows ← sent .listWindows
  reclaimWindows staleBefore now ((windows.filter (Window.stale staleBefore)).map Window.id)

/-- A window that blocks the drain, `finalization.py:104` and `workflow.py:102`. -/
def Window.incomplete (window : Window) : Bool :=
  window.status ≠ .completed && !window.extractionSkipped && !window.isFinalPartial

/-- `_should_publish_window_job(window, stale_before)`. -/
def Window.shouldPublish (staleBefore : Int) (window : Window) : Bool :=
  !window.extractionSkipped && !window.isFinalPartial &&
    (window.status = .failed || (window.status = .pending &&
      (window.queuedAt = none || window.updatedAt ≤ staleBefore)))

/-- The window jobs of `finalize`. -/
def publishWindows (now : Int) : List Window → Operating Unit
  | [] => return ()
  | window :: rest => do
    markWindowQueued window.id now
    sent (.emit "conversation.window.extraction.requested")
    publishWindows now rest

/-- A completed window whose artifacts are not persisted, `finalization.py:149`. -/
def Window.persistenceGap (window : Window) : Bool :=
  window.status = .completed && !window.artifactPersistenceOk

/-- The recovery of such windows, `finalization.py:155`. -/
def recoverWindows (now : Int) : List Window → Operating Unit
  | [] => return ()
  | window :: rest => do
    failWindow window.id "artifact persistence incomplete" now
    markWindowQueued window.id now
    sent (.emit "conversation.window.extraction.requested")
    recoverWindows now rest

structure FinalizeCall where
  /-- The lease, as the completion of the window at a position finds it. -/
  closing : Nat → Holding := fun _ => { }
  transition : Holding := { }
  published : Bool := false
  audioFound : Chunk → Bool := fun _ => true
  now : Int

/-- What the first part of `finalize` hands on. -/
structure Drained where
  conversation : ConversationDocument
  expectedLast : Int
  accounting : Accounting

/-- The updates of a transition: `missingSequences`. -/
def setMissing (missing : List Nat) (conversation : ConversationDocument) : ConversationDocument :=
  { conversation with missingSequences := missing }

/-- The wait for transcripts, `finalization.py:62`. -/
def waitForTranscripts (settings : Settings) (request : FinalizeCall)
    (conversation : ConversationDocument)
    (chunks : List Chunk) (accounting : Accounting) : Operating Unit := do
  let _ ← requeueLostStt settings request.audioFound request.now chunks
  if conversation.status ≠ .waitingForTranscripts then
    let _ ← safeTransition request.transition .waitingForTranscripts
      (setMissing accounting.missingSequences) request.now
  else return ()

/-- `finalize`, as far as `close_ready_windows`. It has ended where the result
is none. -/
def drain (settings : Settings) (request : FinalizeCall) : Operating (Option Drained) := do
  match ← sent .getConversation with
  | none => throw (.valueError "Conversation is not ready for finalization")
  | some conversation =>
    match conversation.expectedLastSequence with
    | none => throw (.valueError "Conversation is not ready for finalization")
    | some expectedLast =>
      if conversation.status ∈ terminalConversationStatuses ∨
          (conversation.status = .partially ∧ request.published = true) then
        return none
      else
        let chunks ← sent .listChunks
        let _ ← sent .listWindows
        let readiness := sessionReadiness settings request.now conversation expectedLast chunks
        persistAccounting request.now
        if readiness.unresolved then
          waitForTranscripts settings request conversation chunks readiness.accounting
          return none
        else if settings.enableIncrementalMeetingProcessing then
          let _ ← closeReadyWindows settings
            { forceFinal := true
              throughSequence := some expectedLast
              skippableSequences := readiness.skippable
              holding := request.closing
              now := request.now }
          return some { conversation, expectedLast, accounting := readiness.accounting }
        else return some { conversation, expectedLast, accounting := readiness.accounting }

def publishReady (request : FinalizeCall) (accounting : Accounting) : Operating Unit := do
  if accounting.validUnwindowed > 0 then
    let _ ← safeTransition request.transition .finalizing id request.now
  else
    sent (.emit "pre_finalization_accounting")
    let transitioned ← safeTransition request.transition .readyForProcessing
      (setMissing (if accounting.permanentFailures ≠ 0 then accounting.missingSequences else []))
      request.now
    if transitioned then sent (.emit "conversation.processing.requested") else return ()

/-- `finalize` with the windows that it has listed, `finalization.py:110-174`. -/
def settleListed (settings : Settings) (request : FinalizeCall) (drained : Drained)
    (unwindowed : Nat) (windows : List Window) : Operating Unit := do
  let staleBefore := request.now - settings.windowProcessingStaleTimeoutSeconds * 1000
  let incomplete := windows.filter Window.incomplete
  publishWindows request.now (incomplete.filter (Window.shouldPublish staleBefore))
  let chunks ← sent .listChunks
  let readiness := sessionReadiness settings request.now drained.conversation
    drained.expectedLast chunks
  let accounting := { readiness.accounting with validUnwindowed := unwindowed }
  persistAccounting request.now
  if unwindowed > 0 ∨ incomplete ≠ [] then
    if drained.conversation.status ≠ .finalizing then
      let _ ← safeTransition request.transition .finalizing
        (setMissing accounting.missingSequences) request.now
    else return ()
  else if windows.filter Window.persistenceGap ≠ [] then
    recoverWindows request.now (windows.filter Window.persistenceGap)
    let _ ← safeTransition request.transition .finalizing id request.now
  else publishReady request accounting

/-- `finalize` after the count, `finalization.py:98-174`. -/
def settleWindows (settings : Settings) (request : FinalizeCall) (drained : Drained)
    (unwindowed : Nat) : Operating Unit := do
  let _ ← sent .listWindows
  reclaimStaleProcessingWindows
    (request.now - settings.windowProcessingStaleTimeoutSeconds * 1000) request.now
  let windows ← sent .listWindows
  settleListed settings request drained unwindowed windows

/-- `finalize` from the count of what has no window on. -/
def settle (settings : Settings) (request : FinalizeCall) (drained : Drained) : Operating Unit :=
  if settings.enableIncrementalMeetingProcessing then do
    let unwindowed ← countUnwindowedNonEmptyTranscripts (some drained.expectedLast)
    settleWindows settings request drained unwindowed
  else publishReady request drained.accounting

def finalize (settings : Settings) (request : FinalizeCall) : Operating Unit := do
  match ← drain settings request with
  | none => return ()
  | some drained => settle settings request drained

/-- One call of `run`, as far as its drain guard. -/
structure ProcessCall where
  /-- The outcome of `require_active_lease`. -/
  lease : Except WriteError Unit := .ok ()
  /-- The outcome of the route and of `create_extraction_run`. -/
  extractionRun : Except StatusError Unit := .ok ()
  recovering : Holding := { }
  processing : Holding := { }
  finalizing : Holding := { }
  now : Int

/-- How far `run` has come. -/
inductive Processing where
  | completed
  | notReady
  | deferred
  | proceeds
  deriving DecidableEq

/-- The conversation goes back to its finalization, `workflow.py:118`. -/
def deferProcessing (request : ProcessCall) (conversation : ConversationDocument) :
    Operating Unit := do
  if conversation.status ≠ .finalizing then
    let _ ← transition request.finalizing .finalizing id request.now
    sent (.emit "conversation.finalization.requested")
  else sent (.emit "conversation.finalization.requested")

/-- The condition of the drain guard, `workflow.py:98-107`. -/
def drainPending (settings : Settings) : Operating Bool :=
  if settings.enableIncrementalMeetingProcessing then do
    let windows ← sent .listWindows
    let unwindowed ← countUnwindowedNonEmptyTranscripts none
    return unwindowed ≠ 0 || windows.filter Window.incomplete ≠ []
  else return false

/-- `run`: the extraction run, the status PROCESSING and the drain guard. -/
def processDrained (settings : Settings) (request : ProcessCall)
    (conversation : ConversationDocument) :
    Operating Processing := do
  if conversation.status ∈ [.readyForProcessing, .partially, .processing, .retryPending] then
    ExceptT.mk (.ret request.extractionRun)
    let _ ← transition request.processing .processing id request.now
    if ← drainPending settings then
      deferProcessing request conversation
      return .deferred
    else return .proceeds
  else
    throw (.valueError ("Conversation is not ready for processing: " ++ conversation.status.value))

def processConversation (settings : Settings) (request : ProcessCall) : Operating Processing := do
  match ← sent .getConversation with
  | none => throw (.valueError "Conversation not found")
  | some conversation =>
    if conversation.status = .completed then return .completed
    else
      ExceptT.mk (.ret (request.lease.mapError .write))
      if conversation.status ∈ [.stopRequested, .waitingForTranscripts, .finalizing] then
        sent (.emit "conversation.finalization.requested")
        return .notReady
      else if conversation.status ∈ [.failed, .validating] then
        let recovered ← transition request.recovering .retryPending (setMissing []) request.now
        processDrained settings request recovered
      else processDrained settings request conversation

end AiBuddy.Conversation.Session
