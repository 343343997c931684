import AiBuddy.Misc.Keyed
import AiBuddy.Conversation.Status
import AiBuddy.Conversation.WindowExtraction

/-!
# The documents of one conversation

A conversation with its transcript chunks and its windows (`services/conversation/models.py`), as
far as windowing and finalization read them, and the commands of the repository on them. Times
are numbers of milliseconds. The legacy status `excluded` is the one that the validator turns it
into.
-/

namespace AiBuddy.Conversation.Session

open Program Queue.MongoFence

inductive STTStatus where
  | pending
  | processing
  | completed
  | failed
  deriving DecidableEq

inductive TranscriptProcessingStatus where
  | unprocessed
  | processed
  | archived
  | expired
  deriving DecidableEq

inductive TranscriptExclusionReason where
  | emptyTranscript
  | sttFailed
  | sequenceMissing
  deriving DecidableEq

def TranscriptExclusionReason.value : TranscriptExclusionReason → String
  | emptyTranscript => "empty_transcript"
  | sttFailed => "stt_failed"
  | sequenceMissing => "sequence_missing"

/-- `TranscriptChunkDocument`, with the fence of its fenced writes. -/
structure Chunk where
  chunkId : String
  sequenceNumber : Nat
  rawText : Option String := none
  normalizedText : Option String := none
  sttStatus : STTStatus := .pending
  processingStatus : TranscriptProcessingStatus := .unprocessed
  endTimeMs : Option Int := none
  audioFilePath : Option String := none
  sttAttempts : Nat := 0
  retryCount : Nat := 0
  lastError : Option String := none
  failureStage : Option String := none
  failureType : Option String := none
  terminal : Bool := false
  processingWindowId : Option Nat := none
  exclusionReason : Option String := none
  updatedAt : Int
  processingFence : Option Int := none
  deriving DecidableEq

def orText (left right : Option String) : String :=
  if left.getD "" ≠ "" then left.getD "" else right.getD ""

namespace Chunk

/-- `useful_transcript_text(chunk)`, `windowing.py:41`. -/
def usefulText (chunk : Chunk) : String :=
  Text.strip (orText chunk.normalizedText chunk.rawText)

/-- `is_useful_chunk(chunk)`, `windowing.py:45`, and `_is_useful_transcript`,
`repository.py:1336`. -/
def useful (chunk : Chunk) : Bool := chunk.usefulText ≠ ""

/-- `chunk.exclusionReason` as a condition. -/
def excluded (chunk : Chunk) : Bool := chunk.exclusionReason.getD "" ≠ ""

/-- `chunk_duration_ms(chunk)`, `windowing.py:58`. -/
def durationMs (chunk : Chunk) : Nat := (chunk.endTimeMs.getD 0).toNat

def unwindowed (chunk : Chunk) : Bool :=
  chunk.sttStatus = .completed && chunk.processingStatus = .unprocessed

end Chunk

/-- `ConversationWindowDocument`. The number of a stored window is its id. -/
structure Window where
  id : Nat := 0
  processingVersion : Int
  windowIndex : Nat
  sequenceStart : Nat
  sequenceEnd : Nat
  text : String
  tokenCount : Nat
  durationMs : Option Nat := none
  overlapSequenceStart : Option Nat := none
  isFinalPartial : Bool := false
  closeReason : String
  sequenceCount : Nat := 0
  emptyChunkCount : Nat := 0
  nonEmptyChunkCount : Nat := 0
  usefulCharCount : Nat := 0
  usefulWordCount : Nat := 0
  usefulTokenCount : Nat := 0
  wallClockSpanMs : Option Nat := none
  meaningfulSpeechMs : Option Nat := none
  artifactPersistenceOk : Bool := true
  extractionSkipped : Bool := false
  status : WindowProcessingStatus := .pending
  lastError : Option String := none
  queuedAt : Option Int := none
  updatedAt : Int := 0
  processingFence : Option Int := none
  deriving DecidableEq

def Window.sameKey (window other : Window) : Bool :=
  window.processingVersion = other.processingVersion &&
    window.sequenceStart = other.sequenceStart && window.sequenceEnd = other.sequenceEnd

structure ConversationDocument where
  status : ConversationStatus := .recording
  stoppedAt : Option Int := none
  expectedLastSequence : Option Int := none
  receivedAudioChunkCount : Nat := 0
  completedTranscriptChunkCount : Nat := 0
  failedTranscriptChunkCount : Nat := 0
  processingVersion : Int := 1
  missingSequences : List Nat := []
  sourceType : Option String := none
  updatedAt : Int := 0
  processingFence : Option Int := none
  deriving DecidableEq

def ConversationDocument.meetingExtension (conversation : ConversationDocument) : Bool :=
  conversation.sourceType = some "meeting_extension"

/-- The documents, the chunks and windows in the order in which the repository lists them. A
sequence number has one chunk, by the unique index. -/
structure State where
  conversation : Option ConversationDocument
  chunks : List Chunk
  windows : List Window
  nextWindowId : Nat := 0
  increasing : (chunks.map Chunk.sequenceNumber).Pairwise (· < ·) := by decide
  ordered : (windows.map Window.sequenceStart).Pairwise (· ≤ ·) := by decide

/-- A fence that a write under a token may overwrite. A write without a token does not look. -/
def fenceAllows (token fence : Option Int) : Bool :=
  match token, fence with
  | some token, some fence => fence ≤ token
  | _, _ => true

def fenceAfter (token fence : Option Int) : Option Int := token.or fence

def Chunk.writable (accepts : Chunk → Bool) (token : Option Int) (chunk : Chunk) : Bool :=
  accepts chunk && fenceAllows token chunk.processingFence

def Chunk.written (change : Chunk → Chunk) (token : Option Int) (chunk : Chunk) : Chunk :=
  { change chunk with
    sequenceNumber := chunk.sequenceNumber
    processingFence := fenceAfter token chunk.processingFence }

@[simp] theorem Chunk.written_sequenceNumber (change : Chunk → Chunk) (token : Option Int)
    (chunk : Chunk) : (chunk.written change token).sequenceNumber = chunk.sequenceNumber := rfl

def Window.writable (accepts : Window → Bool) (token : Option Int) (window : Window) : Bool :=
  accepts window && fenceAllows token window.processingFence

def Window.written (change : Window → Window) (token : Option Int) (window : Window) : Window :=
  { change window with
    id := window.id
    sequenceStart := window.sequenceStart
    processingFence := fenceAfter token window.processingFence }

@[simp] theorem Window.written_sequenceStart (change : Window → Window) (token : Option Int)
    (window : Window) : (window.written change token).sequenceStart = window.sequenceStart := rfl

/-- What the repository and the queue are asked. A conditional update carries its condition and the
change that it makes, and answers with the document after it. -/
inductive Command : Type → Type where
  | getConversation : Command (Option ConversationDocument)
  | updateConversation (accepts : ConversationDocument → Bool) (change : ConversationDocument →
    ConversationDocument)
      (token : Option Int) : Command (Option ConversationDocument)
  | getChunk (sequence : Nat) : Command (Option Chunk)
  | listChunks : Command (List Chunk)
  /-- `find_one` by the conversation alone. -/
  | anyChunk : Command (Option Chunk)
  | insertChunk (chunk : Chunk) : Command Bool
  | updateChunk (sequence : Nat) (accepts : Chunk → Bool) (change : Chunk → Chunk)
      (token : Option Int) : Command (Option Chunk)
  | getWindow (windowId : Nat) : Command (Option Window)
  | listWindows : Command (List Window)
  | insertWindow (window : Window) : Command Window
  | updateWindow (windowId : Nat) (accepts : Window → Bool) (change : Window → Window)
      (token : Option Int) : Command (Option Window)
  /-- A message on a stream, or an entry of the debug trace. -/
  | emit (name : String) : Command Unit

namespace State

def updateChunk (s : State) (sequence : Nat) (accepts : Chunk → Bool) (change : Chunk → Chunk)
    (token : Option Int) : State :=
  { s with
    chunks := Keyed.modify Chunk.sequenceNumber sequence (Chunk.writable accepts token)
      (Chunk.written change token) s.chunks
    increasing := by
      rw [Keyed.map_modify (Chunk.written_sequenceNumber change token)]
      exact s.increasing }

def findChunk (s : State) (sequence : Nat) (accepts : Chunk → Bool) (token : Option Int) :
    Option Chunk :=
  s.chunks.find? fun chunk => chunk.sequenceNumber = sequence && chunk.writable accepts token

def insertChunk (s : State) (chunk : Chunk) : State :=
  if h : chunk.sequenceNumber ∈ s.chunks.map Chunk.sequenceNumber then s
  else
    { s with
      chunks := Keyed.insertSorted Chunk.sequenceNumber chunk s.chunks
      increasing := by
        rw [List.pairwise_map]
        exact Keyed.increasing_insertSorted (List.pairwise_map.mp s.increasing) h }

def updateWindow (s : State) (windowId : Nat) (accepts : Window → Bool) (change : Window → Window)
    (token : Option Int) : State :=
  { s with
    windows := Keyed.modify Window.id windowId (Window.writable accepts token)
      (Window.written change token) s.windows
    ordered := by
      rw [Keyed.map_modify (Window.written_sequenceStart change token)]
      exact s.ordered }

def findWindow (s : State) (windowId : Nat) (accepts : Window → Bool) (token : Option Int) :
    Option Window :=
  s.windows.find? fun window => window.id = windowId && window.writable accepts token

def insertWindow (s : State) (window : Window) : Window × State :=
  match s.windows.find? (Window.sameKey window) with
  | some stored => (stored, s)
  | none =>
    let stored := { window with id := s.nextWindowId }
    (stored,
      { s with
        windows := Keyed.insertSorted Window.sequenceStart stored s.windows
        nextWindowId := s.nextWindowId + 1
        ordered := by
          rw [List.pairwise_map]
          exact Keyed.sorted_insertSorted (List.pairwise_map.mp s.ordered) })

def updateConversation (s : State) (accepts : ConversationDocument → Bool)
    (change : ConversationDocument → ConversationDocument) (token : Option Int) :
      Option ConversationDocument × State :=
  match s.conversation with
  | some conversation =>
    if accepts conversation && fenceAllows token conversation.processingFence then
      let changed :=
        { change conversation with
          processingFence := fenceAfter token conversation.processingFence }
      (some changed, { s with conversation := some changed })
    else (none, s)
  | none => (none, s)

/-- A command, answered. Where several documents match, `choice` takes one. -/
def run (choice : Nat) {α : Type} (command : Command α) (s : State) :
    Except Mongo.Error α × State :=
  match command with
  | .getConversation => (.ok s.conversation, s)
  | .updateConversation accepts change token =>
    ((.ok (s.updateConversation accepts change token).1),
      (s.updateConversation accepts change token).2)
  | .getChunk sequence =>
    (.ok (s.chunks.find? fun chunk => chunk.sequenceNumber = sequence), s)
  | .listChunks => (.ok s.chunks, s)
  | .anyChunk => (.ok s.chunks[choice % s.chunks.length]?, s)
  | .insertChunk chunk =>
    (.ok (chunk.sequenceNumber ∉ s.chunks.map Chunk.sequenceNumber), s.insertChunk chunk)
  | .updateChunk sequence accepts change token =>
    (.ok ((s.findChunk sequence accepts token).map (Chunk.written change token)),
      s.updateChunk sequence accepts change token)
  | .getWindow windowId => (.ok (s.windows.find? fun window => window.id = windowId), s)
  | .listWindows => (.ok s.windows, s)
  | .insertWindow window => (.ok (s.insertWindow window).1, (s.insertWindow window).2)
  | .updateWindow windowId accepts change token =>
    (.ok ((s.findWindow windowId accepts token).map (Window.written change token)),
      s.updateWindow windowId accepts change token)
  | .emit _ => (.ok (), s)

end State

def Performed {α : Type} (command : Command α) (s : State) (reply : Except Mongo.Error α)
    (s' : State) : Prop :=
  ∃ choice, Answers .connection (State.run choice command) s reply s'

def answer {β : Type} (command : Remote Mongo.Error Command β) (s : State) : β × State :=
  Remote.answer (State.run 0) command s

end AiBuddy.Conversation.Session
