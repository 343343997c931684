import AiBuddy.Goals.Store
import AiBuddy.Misc.Owing

/-!
# The schedule of goal reviews (`services/goals/reviews.py`)

`enqueue_due_reviews`, which `run_goal_scheduler` calls every minute in every process. Each of its
commands may fail before or after the server has carried it out, and what a failure raises ends the
call. A process that crashes is one whose next command is never sent.
-/

namespace AiBuddy.Goals.ReviewSchedule

open Program

/-- A document of `goals`, as far as the scheduler reads it. -/
structure ScheduledGoal where
  id : String
  ownerId : String
  status : String
  timezone : String
  deriving DecidableEq

inductive PeriodType where
  | daily
  | weekly
  deriving DecidableEq

/-- `_local_now`: a moment and its ISO calendar. -/
structure Moment where
  hour : Nat
  minute : Nat
  isoweekday : Nat
  isoYear : Nat
  isoWeek : Nat
  date : String
  deriving DecidableEq

structure Slot where
  goalId : String
  periodType : PeriodType
  periodKey : String
  deriving DecidableEq

/-- A review job of `goal_jobs`. -/
structure ReviewJob where
  id : Nat
  ownerId : String
  slot : Slot
  status : JobStatus
  deriving DecidableEq

/-- `publish_goal_event`, `publisher.py:10`, for a review. -/
structure ReviewEvent where
  jobId : Nat
  userId : String
  slot : Slot
  deriving DecidableEq

/-- `status: {"$in": ["queued", "running"]}`. -/
def ReviewJob.active (job : ReviewJob) : Bool := job.status = .queued || job.status = .running

structure State where
  goals : List ScheduledGoal
  /-- `goal_reviews`: `spaceGrounded` of the review of a slot. -/
  reviews : Slot → Option Bool
  /-- `goal_snapshots`: whether `actual` of the snapshot of a slot is not `None`. -/
  snapshots : Slot → Option Bool
  jobs : List ReviewJob
  published : List ReviewEvent
  now : String → Moment

inductive Failure where
  | connection
  deriving DecidableEq

inductive Command : Type → Type
  | findGoals : Command (List ScheduledGoal)
  | localNow (timezone : String) : Command Moment
  | findReview (slot : Slot) : Command (Option Bool)
  | findSnapshot (slot : Slot) : Command (Option Bool)
  | findQueued (slot : Slot) : Command Bool
  | insertJob (slot : Slot) (ownerId : String) : Command Nat
  | publish (event : ReviewEvent) : Command Unit

namespace State

def activeJobs (s : State) (slot : Slot) : List ReviewJob :=
  s.jobs.filter fun job => job.slot = slot && job.active

def newJob (s : State) (slot : Slot) (ownerId : String) : ReviewJob where
  id := s.jobs.length
  ownerId
  slot
  status := .queued

def run {α : Type} (command : Command α) (s : State) : Except Failure α × State :=
  match command with
  | .findGoals => (.ok ((s.goals.filter (·.status = "ACTIVE")).take 200), s)
  | .localNow timezone => (.ok (s.now timezone), s)
  | .findReview slot => (.ok (s.reviews slot), s)
  | .findSnapshot slot => (.ok (s.snapshots slot), s)
  | .findQueued slot => (.ok !(s.activeJobs slot).isEmpty, s)
  | .insertJob slot ownerId =>
    (.ok s.jobs.length, { s with jobs := s.jobs ++ [s.newJob slot ownerId] })
  | .publish event => (.ok (), { s with published := s.published ++ [event] })

end State

abbrev Scheduling := Raising (Remote Failure Command) Failure

def ask {α : Type} (command : Command α) : Scheduling α :=
  Program.send (fun failure => failure) command

def dueForReview (moment : Moment) : Bool :=
  0 < moment.hour || (moment.hour = 0 && 5 ≤ moment.minute)

def periodKey (periodType : PeriodType) (moment : Moment) : String :=
  match periodType with
  | .weekly =>
    (moment.isoYear : Int).repr ++ "-W" ++
      (if moment.isoWeek < 10 then "0" else "") ++ (moment.isoWeek : Int).repr
  | .daily => moment.date

def slotAt (goal : ScheduledGoal) (periodType : PeriodType) (moment : Moment) : Slot :=
  ⟨goal.id, periodType, periodKey periodType moment⟩

/-- The job and its event, `:427`. -/
def queueReview (goal : ScheduledGoal) (slot : Slot) : Scheduling Unit := do
  let jobId ← ask (.insertJob slot goal.ownerId)
  ask (.publish ⟨jobId, goal.ownerId, slot⟩)

def enqueuePeriod (goal : ScheduledGoal) (moment : Moment) (periodType : PeriodType) :
    Scheduling Unit :=
  if periodType = .weekly ∧ moment.isoweekday ≠ 1 then return ()
  else do
    let slot := slotAt goal periodType moment
    let existing ← ask (.findReview slot)
    let snapshot ← ask (.findSnapshot slot)
    let reviewReady := existing = some true ∧ snapshot = some true
    if reviewReady then return ()
    else
      let queued ← ask (.findQueued slot)
      if queued then return () else queueReview goal slot

def enqueueGoal (goal : ScheduledGoal) : Scheduling Unit := do
  let timezone := if goal.timezone ≠ "" then goal.timezone else "Asia/Kolkata"
  let moment ← ask (.localNow timezone)
  if dueForReview moment then
    enqueuePeriod goal moment .daily
    enqueuePeriod goal moment .weekly
  else return ()

def enqueueGoals : List ScheduledGoal → Scheduling Unit
  | [] => return ()
  | goal :: rest => do
    enqueueGoal goal
    enqueueGoals rest

def enqueueDueReviews : Scheduling Unit := do
  let goals ← ask .findGoals
  enqueueGoals goals

abbrev Going := ∀ {α : Type}, Command α → State → Except Failure α → State → Prop

def goes (going : Going) : Semantics (Remote Failure Command) State :=
  Remote.semantics fun command s reply s' =>
    Answers .connection (State.run command) s reply s' ∧ going command s reply s'

def Schedulers (_ : State) (prog : Program (Remote Failure Command) (Except Failure Unit)) : Prop :=
  prog = enqueueDueReviews.run

/-- What a worker does to a job: it claims one whose event has been published, and settles one that
is running. -/
def Worked (s : State) (job job' : ReviewJob) : Prop :=
  job' = job ∨
    (job.status = .queued ∧ (∃ event ∈ s.published, event.jobId = job.id) ∧
      job' = { job with status := .running }) ∨
    (job.status = .running ∧ ∃ status, (status = .ready ∨ status = .failed) ∧
      job' = { job with status })

/-- The rest of the system: workers move on, goals, reviews, snapshots and the time change. -/
def Elsewhere (s s' : State) : Prop :=
  s'.published = s.published ∧ List.Forall₂ (Worked s) s.jobs s'.jobs

abbrev SchedulerPool := Pool (Remote Failure Command) (Except Failure Unit) State

abbrev SchedulerRun (going : Going) (start : State) : SchedulerPool → Prop :=
  Pool.Run (goes going) Schedulers Elsewhere start

def anyhow : Going := fun _ _ _ _ => True

namespace State

def reviewReady (s : State) (slot : Slot) : Bool :=
  s.reviews slot = some true && s.snapshots slot = some true

def Single (s : State) : Prop := ∀ slot, (s.activeJobs slot).length ≤ 1

def isPublished (s : State) (jobId : Nat) : Bool := s.published.any (·.jobId = jobId)

/-- A pass that begins here at some time, and whose every command is answered, publishes an event
for the slot. -/
def Recovers (s : State) (slot : Slot) : Prop :=
  ∃ now, ∃ event ∈ (enqueueDueReviews.run.eval (Remote.answer State.run)
      { s with now }).2.published.drop s.published.length, event.slot = slot

end State

def publishes (jobId : Nat) {β : Type} (command : Remote Failure Command β) : Prop :=
  match command with
  | .send (.publish event) => event.jobId = jobId
  | _ => False

/-- A slot whose review is not ready has at most one job that is queued or running, and the event of
a job that is queued has been published, or is what a call publishes next, or would be published by
a later pass. -/
structure NeitherStuckNorDoubled (pool : SchedulerPool) : Prop where
  single : ∀ slot, pool.shared.reviewReady slot = false →
    (pool.shared.activeJobs slot).length ≤ 1
  unstuck : ∀ job ∈ pool.shared.jobs, job.status = .queued →
    pool.shared.reviewReady job.slot = false →
    pool.shared.isPublished job.id = true ∨ pool.Owes publishes job.id ∨
      pool.shared.Recovers job.slot

/-- A job is inserted only while its slot has none that is queued or running, and the insert is
answered; an event that is sent is published. -/
def orderly : Going := fun command s reply s' =>
  match command, reply with
  | .insertJob slot _, reply => s' = s ∨ (s.activeJobs slot = [] ∧ ∃ jobId, reply = .ok jobId)
  | .publish event, _ => s'.isPublished event.jobId = true
  | _, _ => True

end AiBuddy.Goals.ReviewSchedule
