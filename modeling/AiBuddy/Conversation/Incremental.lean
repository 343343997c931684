import AiBuddy.Conversation.Windowing

/-!
# Closing windows (`services/conversation/incremental.py:56`)

`IncrementalMeetingProcessor.close_ready_windows`, with the lists of chunks and windows that it
reads at its start. The clock stands still during one call.
-/

namespace AiBuddy.Conversation.Session

open Program Queue.MongoFence

/-- `first_sequence_for_conversation(conversation)`, `transcript.py:163`. -/
def ConversationDocument.firstSequence (conversation : ConversationDocument) : Nat :=
  if conversation.meetingExtension then 1 else 0

structure CloseCall where
  forceFinal : Bool := false
  throughSequence : Option Int := none
  skippableSequences : List Nat := []
  /-- The lease, as the completion of the window at a position finds it. -/
  holding : Nat → Holding := fun _ => { }
  now : Int

/-- `_sequences_covered_by_windows(windows)`, for one sequence number. -/
def covers (windows : List Window) (sequence : Nat) : Bool :=
  windows.any fun window => window.sequenceStart ≤ sequence && sequence ≤ window.sequenceEnd

/-- A chunk of `_derived_skippable_sequences`. -/
def Chunk.derivedSkippable (settings : Settings) (chunk : Chunk) : Bool :=
  chunk.excluded || (chunk.sttStatus = .completed && !chunk.useful) ||
    isTerminalFailedChunk settings.workerMaxRetries chunk

def derivedSkippableSequences (settings : Settings) (chunks : List Chunk) : List Nat :=
  (chunks.filter (Chunk.derivedSkippable settings)).map Chunk.sequenceNumber

def expectedStart (conversation : ConversationDocument) (windows : List Window) : Nat :=
  match windows.getLast? with
  | some last => last.sequenceEnd + 1
  | none => conversation.firstSequence

def usefulSequences (chunks : List Chunk) : List Nat :=
  (chunks.filter fun chunk => chunk.sttStatus = .completed && chunk.useful).map
    Chunk.sequenceNumber

/-- The chunks that `unwindowed` starts with, `:74` and `:90`. -/
def unwindowedFrom (start : Nat) (chunks : List Chunk) : List Chunk :=
  chunks.filter fun chunk =>
    chunk.unwindowed && !chunk.excluded && start ≤ chunk.sequenceNumber

def failedTerminal (start : Nat) (skippable : List Nat) (chunks : List Chunk) : List Nat :=
  (chunks.filter fun chunk =>
    start ≤ chunk.sequenceNumber && chunk.sttStatus = .failed &&
      chunk.sequenceNumber ∈ skippable).map Chunk.sequenceNumber

structure Hole where
  missing : List Nat := []
  failed : List Nat := []
  skippable : List Nat

/-- `:134-170`: none where the hole is not skippable. -/
def fillHole (forceFinal : Bool) (start : Nat) (chunks unwindowed : List Chunk)
    (skippable : List Nat) : Option Hole :=
  match unwindowed.head? with
  | none => some { skippable }
  | some first =>
    if first.sequenceNumber = start then some { skippable }
    else
      let hole := List.range' start (first.sequenceNumber - start)
      let present := chunks.map Chunk.sequenceNumber
      let skippable :=
        if forceFinal then skippable ++ hole.filter (· ∉ present) else skippable
      if hole.all (· ∈ skippable) then
        some
          { missing := hole.filter (· ∉ present)
            failed := hole.filter (· ∈ present)
            skippable }
      else none

/-- A stored window is kept for finalization, or queued for its extraction,
`:198-253`. -/
def routeWindow (settings : Settings) (request : CloseCall) (conversation : ConversationDocument)
    (position : Nat) (closeReason : CloseReason) (saved : Window) : Operating Unit :=
  let retainRaw := saved.isFinalPartial || closeReason = .forcedFinal
  let deferFinalization :=
    request.forceFinal && (settings.enableMeetingPipeline || conversation.meetingExtension)
  if retainRaw || deferFinalization then
    completeWindow (request.holding position) saved.id true request.now
  else if saved.status ∈ [.pending, .failed, .retrying] ∧ saved.queuedAt = none then do
    markWindowQueued saved.id request.now
    sent (.emit "conversation.window.extraction.requested")
  else return ()

def storeWindow (settings : Settings) (request : CloseCall) (conversation : ConversationDocument)
    (position : Nat) (built : BuiltWindow) : Operating Nat := do
  let saved ← createConversationWindow built.window built.ownedSequenceNumbers
    built.skippedSequenceNumbers request.now
  routeWindow settings request conversation position built.closeReason saved
  sent (.emit "window_closed")
  return saved.id

def storeWindows (settings : Settings) (request : CloseCall) (conversation : ConversationDocument) :
    Nat → List BuiltWindow → Operating (List Nat)
  | _, [] => return []
  | position, built :: rest => do
    let windowId ← storeWindow settings request conversation position built
    let windowIds ← storeWindows settings request conversation (position + 1) rest
    return windowId :: windowIds

/-- The overlap with the last window, `:172`. -/
def readOverlap (windows : List Window) : Operating (List Chunk) :=
  match windows.getLast? with
  | none => return []
  | some last =>
    match last.overlapSequenceStart with
    | none => return []
    | some sequenceStart => listTranscriptChunksInRange sequenceStart last.sequenceEnd

def leftoverEmpty (unwindowed : List Chunk) : List Nat :=
  (unwindowed.filter fun chunk => !chunk.useful && !chunk.excluded).map Chunk.sequenceNumber

/-- The windows over the unwindowed chunks, `:172-295`. -/
def closeOver (settings : Settings) (request : CloseCall) (conversation : ConversationDocument)
    (windows : List Window) (unwindowed : List Chunk) (skippable : List Nat) :
    Operating (List Nat) := do
  let overlapPrefix ← readOverlap windows
  let windowIds ← storeWindows settings request conversation 0
    (buildReadyWindows settings conversation unwindowed windows.length request.forceFinal
      overlapPrefix skippable)
  if request.forceFinal then
    markTranscriptsExcluded (leftoverEmpty unwindowed) .emptyTranscript request.now
    return windowIds
  else return windowIds

/-- The exclusions and windows, `:110-309`. -/
def closeWindows (settings : Settings) (request : CloseCall) (conversation : ConversationDocument)
    (chunks : List Chunk) (windows : List Window) (skippable : List Nat) :
    Operating (List Nat) := do
  let start := expectedStart conversation windows
  let unwindowed := unwindowedFrom start chunks
  markTranscriptsExcluded (failedTerminal start skippable chunks) .sttFailed request.now
  let leadingEmpty := leadingSkippableSequences unwindowed skippable
  markTranscriptsExcluded leadingEmpty .emptyTranscript request.now
  let unwindowed := unwindowed.filter (·.sequenceNumber ∉ leadingEmpty)
  match fillHole request.forceFinal start chunks unwindowed skippable with
  | none => return []
  | some hole =>
    markTranscriptsExcluded hole.missing .sequenceMissing request.now
    markTranscriptsExcluded hole.failed .sttFailed request.now
    closeOver settings request conversation windows unwindowed hole.skippable

def closeReadyWindows (settings : Settings) (request : CloseCall) : Operating (List Nat) :=
  if settings.enableIncrementalMeetingProcessing then do
    match ← sent .getConversation with
    | none => return []
    | some conversation =>
      let allChunks ← sent .listChunks
      let chunks := allChunks.filter (Chunk.within request.throughSequence)
      let skippable := request.skippableSequences ++ derivedSkippableSequences settings chunks
      let windows ← sent .listWindows
      let useful := usefulSequences chunks
      if request.forceFinal ∧ useful ≠ [] ∧ useful.all (covers windows) then
        return windows.map Window.id
      else if unwindowedFrom (expectedStart conversation windows) chunks = [] ∧ skippable = [] then
        return []
      else closeWindows settings request conversation chunks windows skippable
  else return []

end AiBuddy.Conversation.Session
