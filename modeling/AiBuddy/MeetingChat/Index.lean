import AiBuddy.Misc.Keyed
import AiBuddy.Misc.Program
import AiBuddy.MeetingChat.Transcript

/-!
# The corpus of a meeting (`services/chat/meeting/index.py`)

`MeetingTranscriptIndex.ensure_corpus` on one meeting: the raw chunks, the points of the meeting in
the vector collection, and the document of `meeting_chat_index`. A call begins with the load of its
context. The lock of a process is left out, so calls of one process may overlap too. What the
embedding provider answers is arbitrary.
-/

namespace AiBuddy.MeetingChat

open Program

def embedBatchSize : Nat := 64

def upsertBatchSize : Nat := 128

/-- The limit of one page of `scroll`. -/
def pageSize : Nat := 256

/-- `INDEX_RETRY_BACKOFF_SECONDS`, in milliseconds. -/
def indexRetryBackoff : Int := 300 * 1000

/-- A document of `meeting_chat_index`, with the fields that are read. -/
structure IndexState where
  userId : String
  fingerprint : Option String := none
  textFingerprint : Option String := none
  textChunks : List MeetingChunk := []
  lastIndexErrorAt : Option Int := none
  lastIndexErrorFingerprint : Option String := none
  deriving DecidableEq

structure MeetingCorpus where
  chunks : List MeetingChunk
  vectorReady : Bool
  deriving DecidableEq

/-- The meeting and the settings. `fingerprint` stands for `_fingerprint`, and `pointId` for
`_point_id`, as a number. -/
structure Meeting where
  userId : String
  chunkChars : Nat
  fingerprint : List MeetingChunk → String
  pointId : Nat → Nat

structure State where
  /-- The documents of `transcript_chunks`. -/
  raw : List RawChunk
  points : List MeetingChunk := []
  document : Option IndexState := none
  /-- The segments of each text copy that was saved, latest last. -/
  saved : List (List TranscriptSegment) := []
  /-- The corpora that calls have returned, each with the number of copies that were saved when
  the call began. -/
  returned : List (Nat × MeetingCorpus) := []

inductive Fault where
  | failed (message : String)
  deriving DecidableEq

/-- The commands of a call. `begin` stands for the call of `ensure_corpus`, and answers with the
number of copies saved so far. -/
inductive IndexCommand : Type → Type 1 where
  | load : IndexCommand (List TranscriptSegment)
  | begin (segments : List TranscriptSegment) : IndexCommand Nat
  | utcNow : IndexCommand Int
  | findState : IndexCommand (Except Fault (Option IndexState))
  /-- The read of `_load_text_copy`. -/
  | findCopy : IndexCommand (Except Fault (Option IndexState))
  | saveText (segments : List TranscriptSegment) (chunks : List MeetingChunk)
      (fingerprint : String) : IndexCommand (Except Fault Unit)
  | recordFailure (fingerprint : String) (now : Int) : IndexCommand (Except Fault Unit)
  | ensureCollection : IndexCommand (Except Fault Unit)
  | embed (batch : List MeetingChunk) : IndexCommand (Except Fault Nat)
  | deletePoints : IndexCommand (Except Fault Unit)
  | upsert (batch : List MeetingChunk) : IndexCommand (Except Fault Unit)
  | complete (fingerprint : String) : IndexCommand (Except Fault Unit)
  /-- One page, after the points that were read before, and the id at which the next begins. -/
  | scroll (before : List MeetingChunk) (offset : Option Nat) :
      IndexCommand (Except Fault (List MeetingChunk × Option Nat))
  | answer (began : Nat) (corpus : MeetingCorpus) : IndexCommand Unit

abbrev Indexing (α : Type) := Raising IndexCommand Fault α

def call {α : Type} (command : IndexCommand (Except Fault α)) : Indexing α :=
  ExceptT.mk (issue command)

def ask {α : Type} (command : IndexCommand α) : Indexing α :=
  ExceptT.mk (issue command >>= fun reply => .ret (.ok reply))

/-- `_load_state(meeting_id)`, as a command reads it. -/
def loadState (command : IndexCommand (Except Fault (Option IndexState))) :
    Indexing (Option IndexState) := do
  match ← attempt (call command) with
  | .ok state => return state
  | .error _ => return none

def textOf (meeting : Meeting) (state : Option IndexState) : List MeetingChunk :=
  match state with
  | some state => if state.userId ≠ meeting.userId then [] else state.textChunks
  | none => []

def loadTextCopy (meeting : Meeting) : Indexing (List MeetingChunk) := do
  let state ← loadState .findCopy
  return textOf meeting state

/-- The loop of `_load_stored_chunks`. There is no answer where the pages are more
than `fuel`. -/
def scrollAll : Nat → List MeetingChunk → Option Nat → Indexing (Option (List MeetingChunk))
  | 0, _, _ => return none
  | fuel + 1, before, offset => do
    let (records, next) ← call (.scroll before offset)
    match next with
    | none => return some (before ++ records)
    | some offset => scrollAll fuel (before ++ records) (some offset)

def listPoints (fuel : Nat) : Indexing (Option (List MeetingChunk)) := do
  call .ensureCollection
  scrollAll fuel [] none

def byIndex (chunks : List MeetingChunk) : List MeetingChunk :=
  chunks.insertionSort fun chunk other => chunk.index ≤ other.index

def loadStoredChunks (fuel : Nat) : Indexing (Option (List MeetingChunk)) := do
  match ← attempt (listPoints fuel) with
  | .ok chunks => return chunks.map byIndex
  | .error _ => return some []

/-- `range(0, len(items), size)` and the slices it makes. -/
def batches {α : Type} (size : Nat) (items : List α) : List (List α) :=
  (List.range ((items.length + size - 1) / size)).map fun i => (items.drop (i * size)).take size

def embedAll : List (List MeetingChunk) → Indexing Nat
  | [] => return 0
  | batch :: rest => do
    let vectors ← call (.embed batch)
    return vectors + (← embedAll rest)

def upsertAll : List (List MeetingChunk) → Indexing Unit
  | [] => return ()
  | batch :: rest => do
    call (.upsert batch)
    upsertAll rest

def index (chunks : List MeetingChunk) (fingerprint : String) : Indexing Unit := do
  call .ensureCollection
  let vectors ← embedAll (batches embedBatchSize chunks)
  call .deletePoints
  -- `zip(chunks, vectors)`
  upsertAll (batches upsertBatchSize (chunks.take vectors))
  call (.complete fingerprint)

def recentIndexFailure (state : Option IndexState) (fingerprint : String) : Indexing Bool := do
  match state.bind IndexState.lastIndexErrorAt with
  | none => return false
  | some failedAt =>
    if state.bind IndexState.lastIndexErrorFingerprint ≠ some fingerprint then return false
    else
      let now ← ask .utcNow
      return now - failedAt < indexRetryBackoff

def recordIndexFailure (fingerprint : String) : Indexing Unit := do
  let now ← ask .utcNow
  let _ ← attempt (call (.recordFailure fingerprint now))

/-- `ensure_corpus` of a context without segments. -/
def ensureStored (fuel : Nat) (meeting : Meeting) : Indexing (Option MeetingCorpus) := do
  match ← loadStoredChunks fuel with
  | none => return none
  | some (chunk :: chunks) => return some { chunks := chunk :: chunks, vectorReady := true }
  | some [] =>
    let saved ← loadTextCopy meeting
    return some { chunks := saved, vectorReady := false }

/-- The index, unless it has failed lately, `:149`. -/
def tryIndex (state : Option IndexState) (chunks : List MeetingChunk) (fingerprint : String) :
    Indexing MeetingCorpus := do
  if ← recentIndexFailure state fingerprint then
    return { chunks := chunks, vectorReady := false }
  else
    match ← attempt (index chunks fingerprint) with
    | .ok () => return { chunks := chunks, vectorReady := true }
    | .error _ =>
      recordIndexFailure fingerprint
      return { chunks := chunks, vectorReady := false }

/-- `ensure_corpus` under the lock. -/
def ensureIndexed (segments : List TranscriptSegment) (chunks : List MeetingChunk)
    (fingerprint : String) : Indexing MeetingCorpus := do
  let state ← loadState .findState
  if state.bind IndexState.fingerprint = some fingerprint then
    return { chunks := chunks, vectorReady := true }
  else
    if state.bind IndexState.textFingerprint ≠ some fingerprint then
      let _ ← attempt (call (.saveText segments chunks fingerprint))
    tryIndex state chunks fingerprint

def ensureCorpus (fuel : Nat) (meeting : Meeting) (segments : List TranscriptSegment) :
    Indexing (Option MeetingCorpus) := do
  match buildChunks meeting.chunkChars segments with
  | [] => ensureStored fuel meeting
  | chunk :: chunks =>
    let fingerprint := meeting.fingerprint (chunk :: chunks)
    return some (← ensureIndexed segments (chunk :: chunks) fingerprint)

def corpusCall (fuel : Nat) (meeting : Meeting) : Indexing Unit := do
  let segments ← ask .load
  let began ← ask (.begin segments)
  match ← ensureCorpus fuel meeting segments with
  | some corpus => ask (.answer began corpus)
  | none => return ()

namespace State

/-- An update of the document with `upsert=True`; every update sets `userId`. -/
def update (meeting : Meeting) (change : IndexState → IndexState) (s : State) : State :=
  { s with
    document := some
      { change (s.document.getD { userId := meeting.userId }) with userId := meeting.userId } }

def saveText (meeting : Meeting) (segments : List TranscriptSegment) (chunks : List MeetingChunk)
    (fingerprint : String) (s : State) : State :=
  { s.update meeting fun state =>
      { state with textFingerprint := some fingerprint, textChunks := chunks } with
    saved := s.saved ++ [segments] }

def recordFailure (meeting : Meeting) (fingerprint : String) (now : Int) (s : State) : State :=
  s.update meeting fun state =>
    { state with lastIndexErrorAt := some now, lastIndexErrorFingerprint := some fingerprint }

def complete (meeting : Meeting) (fingerprint : String) (s : State) : State :=
  s.update meeting fun state => { state with fingerprint := some fingerprint }

def deletePoints (s : State) : State := { s with points := [] }

def upsert (batch : List MeetingChunk) (s : State) : State :=
  { s with
    points := s.points.filter (fun point => batch.all fun chunk => chunk.index ≠ point.index)
      ++ batch }

def pointsFrom (meeting : Meeting) (offset : Option Nat) (s : State) : List MeetingChunk :=
  (s.points.filter fun point => offset.all (· ≤ meeting.pointId point.index)).insertionSort
    fun point other => meeting.pointId point.index ≤ meeting.pointId other.index

def page (meeting : Meeting) (offset : Option Nat) (s : State) :
    List MeetingChunk × Option Nat :=
  ((s.pointsFrom meeting offset).take pageSize,
    ((s.pointsFrom meeting offset).drop pageSize).head?.map
      fun point => meeting.pointId point.index)

def answer (began : Nat) (corpus : MeetingCorpus) (s : State) : State :=
  { s with returned := (began, corpus) :: s.returned }

end State

def Comes (run : State → State) (s : State) (reply : Except Fault Unit) (s' : State) : Prop :=
  (reply = .ok () ∧ s' = run s) ∨ ∃ fault, reply = .error fault ∧ (s' = s ∨ s' = run s)

def Reads {α : Type} (value : α) (reply : Except Fault α) : Prop :=
  reply = .ok value ∨ ∃ fault, reply = .error fault

def performs (meeting : Meeting) : Semantics IndexCommand State := fun command s reply s' =>
  match command, reply with
  | .load, reply => reply = loadSegments s.raw ∧ s' = s
  | .begin _, reply => reply = s.saved.length ∧ s' = s
  | .utcNow, _ => s' = s
  | .findState, reply => Reads s.document reply ∧ s' = s
  | .findCopy, reply => Reads s.document reply ∧ s' = s
  | .saveText segments chunks fingerprint, reply =>
    Comes (State.saveText meeting segments chunks fingerprint) s reply s'
  | .recordFailure fingerprint now, reply =>
    Comes (State.recordFailure meeting fingerprint now) s reply s'
  | .ensureCollection, _ => s' = s
  | .embed _, _ => s' = s
  | .deletePoints, reply => Comes State.deletePoints s reply s'
  | .upsert batch, reply =>
    (reply = .ok () ∧ s' = s.upsert batch) ∨
      ∃ fault written, reply = .error fault ∧ s' = s.upsert (batch.take written)
  | .complete fingerprint, reply => Comes (State.complete meeting fingerprint) s reply s'
  | .scroll _ offset, reply => Reads (s.page meeting offset) reply ∧ s' = s
  | .answer began corpus, _ => s' = s.answer began corpus

abbrev Condition := ∀ {β : Type}, IndexCommand β → State → β → Prop

def anything : Condition := fun _ _ _ => True

def Elsewhere (s s' : State) : Prop := ∃ raw, s' = { s with raw := raw }

def conditioned (meeting : Meeting) (condition : Condition) : Semantics IndexCommand State :=
  fun command s reply s' => condition command s reply ∧ performs meeting command s reply s'

def Calls (meeting : Meeting) (_ : State) (prog : Program IndexCommand (Except Fault Unit)) :
    Prop :=
  ∃ fuel, prog = (corpusCall fuel meeting).run

abbrev IndexPool := Pool IndexCommand (Except Fault Unit) State

/-- The runs from a state, with any number of calls under way at any time. A call that has crashed
is one that never moves again. -/
abbrev IndexRun (meeting : Meeting) (condition : Condition) (start : State) : IndexPool → Prop :=
  Pool.Run (conditioned meeting condition) (Calls meeting) Elsewhere start

def Covers (chunks : List MeetingChunk) (segments : List TranscriptSegment) : Prop :=
  ∀ segment ∈ segments, ∃ chunk ∈ chunks, Text.contains (segmentLine segment) chunk.text = true

instance (chunks : List MeetingChunk) (segments : List TranscriptSegment) :
    Decidable (Covers chunks segments) :=
  inferInstanceAs (Decidable (∀ segment ∈ segments, ∃ chunk ∈ chunks, _ = true))

/-- Every corpus that was returned has the text of each copy that was saved before its call. -/
def Durable (s : State) : Prop :=
  ∀ returned ∈ s.returned, ∀ copy ∈ s.saved.take returned.1, Covers returned.2.chunks copy

instance (s : State) : Decidable (Durable s) :=
  inferInstanceAs (Decidable (∀ returned ∈ s.returned,
    ∀ copy ∈ s.saved.take returned.1, Covers returned.2.chunks copy))

def Unsaved (s : State) : Prop := s.saved = [] ∧ s.returned = []

/-- Calls begin, and save a copy, with no segments or with all those of the copies saved before.
The points that are listed are none or hold the text of these copies, and do not change between two
pages. The read of the text copy does not fail. -/
def whole (meeting : Meeting) : Condition := fun command s reply =>
  match command, reply with
  | .begin segments, _ => segments = [] ∨ ∀ copy ∈ s.saved, copy ⊆ segments
  | .saveText segments _ _, _ => ∀ copy ∈ s.saved, copy ⊆ segments
  | .scroll before offset, _ =>
    (∀ chunk ∈ before, chunk ∈ s.points) ∧
      (∀ chunk ∈ s.points, chunk ∉ s.pointsFrom meeting offset → chunk ∈ before) ∧
      (s.points = [] ∨ ∀ copy ∈ s.saved, Covers s.points copy)
  | .findCopy, reply => ∃ state, reply = .ok state
  | _, _ => True

end AiBuddy.MeetingChat
