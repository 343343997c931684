import AiBuddy.Misc.Program
import AiBuddy.Misc.Text

/-!
# Merging the video of a meeting (`services/meeting_extension/video_merge.py`)

`process_meeting_video_merge` on one meeting: its document in `meeting_sessions`, the uploaded
chunks, and the processes that have the meeting in `_ACTIVE_MERGES`. What FFmpeg and the storage
answer is arbitrary. A log keeps the requests for another merge, the first and the last update of
each merge, and the updates that clear the request.
-/

namespace AiBuddy.MeetingExtension

open Program

def maxMergePasses : Nat := 3

def maxTimeoutAttempts : Int := 2

/-- A document of `meeting_sessions`, with the fields that a merge reads or writes. -/
structure Session where
  videoMergeStatus : Option String := none
  videoMergeAttempts : Int := 0
  finalRecordingS3Key : Option String := none
  mergePresentChunkCount : Option Int := none
  mergeMissingSequences : List Nat := []
  mergeExpectedSequence : Option Int := none
  expectedFinalSequence : Int := 0
  videoRemergeRequested : Bool := false
  lastErrorCode : Option String := none
  lastErrorMessage : String := ""
  thumbnailS3Key : Option String := none
  deriving DecidableEq

def Session.recorded (session : Session) : Bool :=
  session.finalRecordingS3Key.any fun key => key ≠ ""

inductive Mark where
  /-- Other code has set `videoRemergeRequested`. -/
  | requested
  | started
  /-- The update after a merge has cleared the request, or found none. -/
  | cleared (found : Bool)
  /-- A merge has stored a recording of so many chunks. -/
  | stored (count : Int)
  deriving DecidableEq

structure State where
  session : Option Session
  /-- The size of the chunk with a sequence, uploaded as video only or muxed. -/
  chunks : Bool → Nat → Option Nat
  /-- The processes that have the meeting in `_ACTIVE_MERGES`. -/
  active : List Nat
  log : List Mark

def State.remergeRequested (s : State) : Bool := s.session.any Session.videoRemergeRequested

def State.recordedCount (s : State) : Option Int :=
  s.session.bind fun session =>
    if session.recorded then session.mergePresentChunkCount else none

inductive MergeFault where
  | extraction (message : String) (corrupt : Bool)
  | nonRetryable (message : String)
  | other (message : String)
  deriving DecidableEq

def MergeFault.message : MergeFault → String
  | .extraction message _ => message
  | .nonRetryable message => message
  | .other message => message

/-- The file that `concat_webm_chunks` has made, and what its first bytes look like. -/
structure Output where
  size : Nat
  isWebm : Bool
  isMp4 : Bool
  deriving DecidableEq

structure Recording where
  finalRecordingS3Key : String
  mergeMissingSequences : List Nat
  mergePresentChunkCount : Int
  mergeExpectedSequence : Int
  thumbnailS3Key : Option String
  deriving DecidableEq

/-- The commands of a merge. `start` answers with a number of the merge, which stands for the name
of its `job_dir`, and with the document before the update. -/
inductive MergeCommand : Type → Type 1 where
  | isActive (process : Nat) : MergeCommand Bool
  | setActive (process : Nat) (active : Bool) : MergeCommand Unit
  | findAttempts : MergeCommand (Except MergeFault (Option (Int × String)))
  | findExpected : MergeCommand (Except MergeFault (Option Int))
  | start : MergeCommand (Except MergeFault (Nat × Option Session))
  | download (muxed : Bool) (sequence : Nat) : MergeCommand (Option Nat)
  | concat (sequences : List Nat) : MergeCommand (Except MergeFault Output)
  | upload (key contentType : String) : MergeCommand (Except MergeFault Unit)
  | thumbnail (sequences : List Nat) : MergeCommand (Option String)
  | keep : MergeCommand (Except MergeFault Unit)
  | complete (jobDir : Nat) (recording : Recording) : MergeCommand (Except MergeFault Unit)
  | fail (message : String) : MergeCommand (Except MergeFault Unit)
  | clearRequest : MergeCommand (Except MergeFault Bool)

abbrev Merging (α : Type) := Raising MergeCommand MergeFault α

def call {α : Type} (command : MergeCommand (Except MergeFault α)) : Merging α :=
  ExceptT.mk (issue command)

def ask {α : Type} (command : MergeCommand α) : Merging α :=
  ExceptT.mk (issue command >>= fun reply => .ret (.ok reply))

def raising {α : Type} (outcome : Except MergeFault α) : Merging α := ExceptT.mk (.ret outcome)

/-- `_download_merge_chunk` and the check of the file. -/
def downloadMergeChunk (sequence : Nat) : Merging Bool := do
  match ← ask (.download false sequence) with
  | some size => return 0 < size
  | none => return (← ask (.download true sequence)).any (0 < ·)

/-- The loop over the sequences, `:114`: those that are present, and the missing
ones. -/
def downloadChunks : List Nat → Merging (List Nat × List Nat)
  | [] => return ([], [])
  | sequence :: rest => do
    let present ← downloadMergeChunk sequence
    let (presents, missings) ← downloadChunks rest
    return if present then (sequence :: presents, missings) else (presents, sequence :: missings)

/-- `final_key.rsplit(".", 1)[0]`. -/
def withoutExtension (key : String) : String :=
  if '.' ∈ key.toList then .ofList (key.toList.reverse.dropWhile (· ≠ '.')).tail.reverse else key

/-- The upload, `:176`. -/
def uploadOutput (finalKey : String) (output : Output) : Merging String := do
  if output.isWebm then
    call (.upload (withoutExtension finalKey ++ ".webm") "video/webm")
    return withoutExtension finalKey ++ ".webm"
  else if output.isMp4 then
    call (.upload (withoutExtension finalKey ++ ".mp4") "video/mp4")
    return withoutExtension finalKey ++ ".mp4"
  else throw (.extraction "Merged recording is not a recognized MP4/WebM container" true)

def keepsFuller (previous : Option Session) (present : List Nat) : Bool :=
  previous.any fun session => session.recorded &&
    session.mergePresentChunkCount.any fun count => (present.length : Int) < count

def mergeStarted (expected : Int) (finalKey : String) (started : Nat × Option Session) :
    Merging Unit := do
  let (present, missing) ← downloadChunks (List.range' 1 expected.toNat)
  if present.isEmpty then
    throw (.extraction "No uploaded video chunks available to merge" true)
  if keepsFuller started.2 present then
    call .keep
  else
    let output ← call (.concat present)
    if output.size < 8192 then
      throw (.extraction "Merged recording is empty or too small to play" true)
    let key ← uploadOutput finalKey output
    let thumbnail ← ask (.thumbnail present)
    call (.complete started.1 ⟨key, missing, present.length, expected, thumbnail⟩)

def mergeChunks (expected : Int) (finalKey : String) : Merging Unit := do
  let started ← call .start
  mergeStarted expected finalKey started

def mergeOnce (expected : Int) (finalKey : String) : Merging Unit := do
  match ← attempt (mergeChunks expected finalKey) with
  | .ok () => return ()
  | .error fault =>
    call (.fail (Text.take 200 fault.message))
    match fault with
    | .extraction message true => throw (.nonRetryable message)
    | _ => throw fault

def currentExpectedSequence (fallback : Int) : Merging Int := do
  match ← attempt (call .findExpected) with
  | .ok latest => return max (latest.getD 0) fallback
  | .error _ => return fallback

/-- `_merge_passes`, with the number of passes that are left. -/
def mergePasses (finalKey : String) : Nat → Int → Merging Unit
  | 0, _ => return ()
  | left + 1, expected => do
    let expected ← currentExpectedSequence expected
    mergeOnce expected finalKey
    if ← call .clearRequest then mergePasses finalKey left expected else return ()

def mergeShouldStandDown (process : Nat) : Merging Bool := do
  if ← ask (.isActive process) then return true
  match ← attempt (call .findAttempts) with
  | .error _ => return false
  | .ok none => return false
  | .ok (some (attempts, message)) =>
    if maxTimeoutAttempts ≤ attempts && Text.contains "timed out" (Text.lower message) then
      throw (.nonRetryable "Meeting merge timed out repeatedly; leaving the server alone")
    return false

structure MergeRequest where
  enabled : Bool := true
  expectedFinalSequence : Int
  finalRecordingS3Key : String
  validated : Except MergeFault Unit := .ok ()

/-- `process_meeting_video_merge`, in one of the processes. -/
def processMeetingVideoMerge (process : Nat) (request : MergeRequest) : Merging Unit := do
  if !request.enabled then return ()
  raising request.validated
  if ← mergeShouldStandDown process then return ()
  ask (.setActive process true)
  let outcome ← attempt (mergePasses request.finalRecordingS3Key maxMergePasses
    request.expectedFinalSequence)
  ask (.setActive process false)
  raising outcome

namespace State

def start (s : State) : (Nat × Option Session) × State :=
  ((s.log.length, s.session),
    { s with
      session := s.session.map fun session =>
        { session with
          videoMergeStatus := some "RUNNING"
          videoMergeAttempts := session.videoMergeAttempts + 1 }
      log := .started :: s.log })

def keep (s : State) : Unit × State :=
  ((), { s with
    session := s.session.map fun session => { session with videoMergeStatus := some "COMPLETED" } })

def complete (recording : Recording) (s : State) : Unit × State :=
  ((), { s with
    session := s.session.map fun session =>
      { session with
        videoMergeStatus := some "COMPLETED"
        finalRecordingS3Key := some recording.finalRecordingS3Key
        mergeMissingSequences := recording.mergeMissingSequences
        mergePresentChunkCount := some recording.mergePresentChunkCount
        mergeExpectedSequence := some recording.mergeExpectedSequence
        videoMergeAttempts := 0
        thumbnailS3Key := recording.thumbnailS3Key.or session.thumbnailS3Key }
    log := .stored recording.mergePresentChunkCount :: s.log })

def fail (message : String) (s : State) : Unit × State :=
  ((), { s with
    session := s.session.map fun session =>
      { session with
        videoMergeStatus := some "FAILED"
        lastErrorCode := some "MEETING_VIDEO_MERGE_FAILED"
        lastErrorMessage := message } })

def clearRequest (s : State) : Bool × State :=
  (s.remergeRequested,
    { s with
      session := s.session.map fun session => { session with videoRemergeRequested := false }
      log := .cleared s.remergeRequested :: s.log })

end State

/-- What a command to Mongo comes to: it is answered, or raises, and then has run or not. -/
def Comes {α : Type} (run : State → α × State) (s : State) (reply : Except MergeFault α)
    (s' : State) : Prop :=
  (reply = .ok (run s).1 ∧ s' = (run s).2) ∨
    ∃ fault, reply = .error fault ∧ (s' = s ∨ s' = (run s).2)

def mergeSemantics : Semantics MergeCommand State := fun command s reply s' =>
  match command, reply with
  | .isActive process, reply => reply = decide (process ∈ s.active) ∧ s' = s
  | .setActive process true, _ => s' = { s with active := process :: s.active }
  | .setActive process false, _ => s' = { s with active := s.active.filter (· ≠ process) }
  | .findAttempts, reply => Comes (fun s =>
      (s.session.map fun session => (session.videoMergeAttempts, session.lastErrorMessage), s))
      s reply s'
  | .findExpected, reply => Comes (fun s => (s.session.map Session.expectedFinalSequence, s))
      s reply s'
  | .start, reply => Comes State.start s reply s'
  | .download muxed sequence, reply => (reply = none ∨ reply = s.chunks muxed sequence) ∧ s' = s
  | .concat _, _ => s' = s
  | .upload _ _, _ => s' = s
  | .thumbnail _, _ => s' = s
  | .keep, reply => Comes State.keep s reply s'
  | .complete _ recording, reply => Comes (State.complete recording) s reply s'
  | .fail message, reply => Comes (State.fail message) s reply s'
  | .clearRequest, reply => Comes State.clearRequest s reply s'

def mergeAnswer {β : Type} (command : MergeCommand β) (s : State) : β × State :=
  match β, command with
  | _, .isActive process => (process ∈ s.active, s)
  | _, .setActive process true => ((), { s with active := process :: s.active })
  | _, .setActive process false => ((), { s with active := s.active.filter (· ≠ process) })
  | _, .findAttempts =>
    (.ok (s.session.map fun session => (session.videoMergeAttempts, session.lastErrorMessage)), s)
  | _, .findExpected => (.ok (s.session.map Session.expectedFinalSequence), s)
  | _, .start => (.ok s.start.1, s.start.2)
  | _, .download muxed sequence => (s.chunks muxed sequence, s)
  | _, .concat sequences => (.ok ⟨10000 * sequences.length, true, false⟩, s)
  | _, .upload _ _ => (.ok (), s)
  | _, .thumbnail _ => (none, s)
  | _, .keep => (.ok (), s.keep.2)
  | _, .complete _ recording => (.ok (), (s.complete recording).2)
  | _, .fail message => (.ok (), (s.fail message).2)
  | _, .clearRequest => (.ok s.clearRequest.1, s.clearRequest.2)

theorem mergeSemantics_answer {β : Type} (command : MergeCommand β) (s : State) :
    mergeSemantics command s (mergeAnswer command s).1 (mergeAnswer command s).2 := by
  cases command with
  | isActive process => exact ⟨rfl, rfl⟩
  | setActive process active => cases active <;> rfl
  | download muxed sequence => exact ⟨.inr rfl, rfl⟩
  | concat sequences => rfl
  | upload key contentType => rfl
  | thumbnail sequences => rfl
  | findAttempts => exact .inl ⟨rfl, rfl⟩
  | findExpected => exact .inl ⟨rfl, rfl⟩
  | start => exact .inl ⟨rfl, rfl⟩
  | keep => exact .inl ⟨rfl, rfl⟩
  | complete jobDir recording => exact .inl ⟨rfl, rfl⟩
  | fail message => exact .inl ⟨rfl, rfl⟩
  | clearRequest => exact .inl ⟨rfl, rfl⟩

/-- What other code does: it uploads and deletes chunks, and updates the document, where it may
set the request. -/
structure Elsewhere (s s' : State) : Prop where
  requests : ∃ count, s'.log = List.replicate count .requested ++ s.log ∧
    s'.remergeRequested = (s.remergeRequested || 0 < count)
  recorded : s'.recordedCount = s.recordedCount

/-- The last merge has started after the last request, or a request is left for a later merge. -/
def NoneForgotten (s : State) : Prop :=
  s.remergeRequested = true ∨ .requested ∉ s.log.takeWhile (· ≠ .started)

instance (s : State) : Decidable (NoneForgotten s) := inferInstanceAs (Decidable (_ ∨ _))

/-- The update after the last pass has cleared a request that came during the merge of that pass,
and none has come since. -/
def LostRequest (log : List Mark) : Prop :=
  ∃ during rest, log = .cleared true :: during ++ .started :: rest ∧ .requested ∈ during ∧
    .started ∉ during ∧ rest.count .started + 1 = maxMergePasses

/-- The requests before a run of `_merge_passes` are one, if the document has one. -/
def Unmerged (s : State) : Prop := s.log = if s.remergeRequested then [.requested] else []

abbrev MergePool := Pool MergeCommand (Except MergeFault Unit) State

def MergeEvents (_ : State) (prog : Program MergeCommand (Except MergeFault Unit)) : Prop :=
  ∃ process request, prog = (processMeetingVideoMerge process request).run

abbrev MergeCondition := {β : Type} → MergeCommand β → State → Prop

abbrev MergeStep (allowed : MergeCondition) : MergePool → MergePool → Prop :=
  Pool.Step (fun command s reply s' => allowed command s ∧ mergeSemantics command s reply s')
    MergeEvents Elsewhere

abbrev MergeRun (allowed : MergeCondition) (start : State) : MergePool → Prop :=
  Relation.ReflTransGen (MergeStep allowed) ⟨[], start⟩

/-- In the runs from a state, the count that is kept with a stored recording never decreases. -/
def NeverShrinks (allowed : MergeCondition) (start : State) : Prop :=
  ∀ pool pool', MergeRun allowed start pool →
    Relation.ReflTransGen (MergeStep allowed) pool pool' →
    ∀ count, pool.shared.recordedCount = some count →
      ∃ count', pool'.shared.recordedCount = some count' ∧ count ≤ count'

/-- No merge has stored a recording since the first update of the merge that stores one. -/
def StoresApart : MergeCondition := fun command s =>
  match command with
  | .complete jobDir _ => ∀ count, .stored count ∉ s.log.take (s.log.length - (jobDir + 1))
  | _ => True

end AiBuddy.MeetingExtension
