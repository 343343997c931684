import AiBuddy.Misc.Program
import AiBuddy.Reminders.Occurrence

/-!
# Claims of schedule extraction jobs (`services/schedule_extraction/job.py`)

`_claim` and `_finish` of `ScheduleExtractionJob` on the document of one conversation in
`schedule_extractions`. What a job does between them touches other collections, and its results are
parameters.
-/

namespace AiBuddy.ScheduleExtraction

open Program Reminders

inductive ExtractionStatus where
  | processing
  | ready
  | skipped
  | failed
  | retryPending
  | other (text : String)
  deriving DecidableEq

def ExtractionStatus.terminal : ExtractionStatus → Bool
  | .ready | .skipped => true
  | _ => false

/-- A document of `schedule_extractions`, less the fields that no job reads. -/
structure Extraction where
  status : ExtractionStatus
  claimedBy : Option String := none
  claimedAt : Option Instant := none
  completedPipelines : List String := []
  attempts : Nat := 0
  deriving DecidableEq

def claimStale : Instant := 15 * 60 * second

/-- The check of `:60`: another job has claimed the conversation lately. -/
def Extraction.busy (jobId : String) (now : Instant) (existing : Extraction) : Bool :=
  existing.status = .processing && existing.claimedBy ≠ some jobId &&
    existing.claimedAt.any fun claimedAt => claimedAt > now - claimStale

/-- The update of `_claim`, without the count of attempts. -/
def Extraction.claimed (jobId : String) (now : Instant) (existing : Extraction) : Extraction :=
  { existing with status := .processing, claimedBy := some jobId, claimedAt := some now }

/-- The statuses that `run` finishes with. -/
inductive Ending where
  | skipped
  | ready
  | failed
  | retryPending
  deriving DecidableEq

def Ending.status : Ending → ExtractionStatus
  | .skipped => .skipped
  | .ready => .ready
  | .failed => .failed
  | .retryPending => .retryPending

/-- The arguments of `_finish`. A skipped extraction leaves the pipelines as they are. -/
structure Finish where
  ending : Ending
  completedPipelines : Option (List String)
  deriving DecidableEq

def Extraction.finished (finish : Finish) (existing : Extraction) : Extraction :=
  { existing with
    status := finish.ending.status
    completedPipelines := finish.completedPipelines.getD existing.completedPipelines }

inductive Act where
  | claimed
  | finished
  deriving DecidableEq

structure Entry where
  jobId : String
  act : Act
  before : Option Extraction
  after : Option Extraction
  deriving DecidableEq

structure State where
  clock : Instant
  /-- The document of the conversation. A unique index allows no second one. -/
  existing : Option Extraction
  history : List Entry := []
  deriving DecidableEq

inductive Command : Type → Type 1 where
  | now : Command Instant
  | findOne : Command (Option Extraction)
  | insertOne (doc : Extraction) : Command Bool
  | claimOne (jobId : String) (now : Instant) (attempts : Nat) : Command Unit
  | finishOne (finish : Finish) : Command Unit

abbrev JobCommand := Labelled String Command

def State.write (s : State) (jobId : String) (act : Act) (after : Option Extraction) : State :=
  { s with existing := after, history := ⟨jobId, act, s.existing, after⟩ :: s.history }

/-- What a command of a job answers and does. `insertOne` answers whether the key was free. -/
def answer {β : Type} (command : JobCommand β) (s : State) : β × State :=
  match command.command with
  | .now => (s.clock, s)
  | .findOne => (s.existing, s)
  | .insertOne doc =>
    if s.existing.isSome then (false, s) else (true, s.write command.label .claimed (some doc))
  | .claimOne jobId now attempts =>
    ((), s.write command.label .claimed
      (s.existing.map fun existing => { existing.claimed jobId now with attempts }))
  | .finishOne finish =>
    ((), s.write command.label .finished (s.existing.map (Extraction.finished finish)))

abbrev Claiming := Program Command

inductive ClaimReply where
  | exists_ (existing : Extraction)
  | busy (existing : Option Extraction)
  | claimed (job : Extraction)
  deriving DecidableEq

def claim (jobId : String) : Claiming ClaimReply := do
  let now ← issue .now
  match ← issue .findOne with
  | none =>
    let doc : Extraction :=
      { status := .processing, claimedBy := some jobId, claimedAt := some now, attempts := 1 }
    let inserted ← issue (.insertOne doc)
    return if inserted then .claimed doc else .busy none
  | some existing =>
    if existing.status.terminal then return .exists_ existing
    else if existing.busy jobId now then return .busy (some existing)
    else do
      issue (.claimOne jobId now (existing.attempts + 1))
      return .claimed (existing.claimed jobId now)

/-- `run`: what a claimed job finishes with depends on the document that it claimed.
Without that it stops before it finishes. -/
def attempt (jobId : String) (finish : Extraction → Option Finish) : Claiming Unit := do
  match ← claim jobId with
  | .claimed job =>
    match finish job with
    | some finish => issue (.finishOne finish)
    | none => return ()
  | _ => return ()

/-- A job id: what it has still to finish, and its later attempts, one after another. -/
structure Job where
  id : String
  unfinished : Option Finish
  attempts : List (Extraction → Option Finish)

def Job.program (job : Job) : Claiming Unit := do
  match job.unfinished with
  | some finish => issue (.finishOne finish)
  | none => pure ()
  forEach (attempt job.id) job.attempts

abbrev Condition := {β : Type} → JobCommand β → State → Prop

def jobSemantics (allowed : Condition) : Semantics JobCommand State :=
  fun command s reply s' => allowed command s ∧ answer command s = (reply, s')

def Elapses (s s' : State) : Prop := ∃ clock, s.clock ≤ clock ∧ s' = { s with clock }

def jobPool (jobs : List Job) (start : State) : Pool JobCommand Unit State :=
  ⟨jobs.map fun job => job.program.labelled job.id, start⟩

abbrev JobRun (allowed : Condition) (jobs : List Job) (start : State)
    (pool : Pool JobCommand Unit State) : Prop :=
  Relation.ReflTransGen (Pool.Step (jobSemantics allowed) (fun _ _ => False) Elapses)
    (jobPool jobs start) pool

def State.HeldBy (s : State) (jobId : String) : Prop :=
  ∃ existing, s.existing = some existing ∧ existing.status = .processing ∧
    existing.claimedBy = some jobId

def storedClaim (existing : Option Extraction) : List Entry :=
  match existing with
  | some doc =>
    match doc.status, doc.claimedBy with
    | .processing, some jobId => [⟨jobId, .claimed, none, some doc⟩]
    | _, _ => []
  | none => []

/-- The jobs have different ids, and only the one that holds the stored claim has still to
finish. -/
structure Started (jobs : List Job) (start : State) : Prop where
  nodup : (jobs.map Job.id).Nodup
  unfinished : ∀ job ∈ jobs, job.unfinished.isSome = true → start.HeldBy job.id
  history : start.history = storedClaim start.existing

def Fresh (s : State) : Prop :=
  ∀ existing, s.existing = some existing → existing.status = .processing →
    ∃ claimedAt, existing.claimedAt = some claimedAt ∧ claimedAt > s.clock - claimStale

/-- No `update_one` of a claim lands on the claim of another job. -/
def SparesClaims : Condition := fun command s =>
  match command.command with
  | .claimOne .. => ∀ other, s.HeldBy other → other = command.label
  | _ => True

def Unfinished (history : List Entry) (jobId : String) : Prop :=
  (history.find? fun entry => entry.jobId = jobId).map Entry.act = some .claimed

instance (history : List Entry) (jobId : String) : Decidable (Unfinished history jobId) :=
  inferInstanceAs (Decidable (_ = _))

def TakenOver (history : List Entry) (jobId : String) : Prop :=
  ∃ since claim older, history = since ++ claim :: older ∧
    claim.jobId = jobId ∧ claim.act = .claimed ∧
    (∀ entry ∈ since, entry.act = .claimed → entry.jobId ≠ jobId) ∧
    ∃ entry ∈ since, entry.act = .claimed

def Entry.Changes (entry : Entry) : Prop :=
  entry.before.map Extraction.status ≠ entry.after.map Extraction.status ∨
    entry.before.map Extraction.completedPipelines ≠
      entry.after.map Extraction.completedPipelines

def NoLateChange (history : List Entry) : Prop :=
  ∀ newer entry older, history = newer ++ entry :: older → entry.act = .finished →
    TakenOver older entry.jobId → ¬ entry.Changes

end AiBuddy.ScheduleExtraction
