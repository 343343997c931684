import AiBuddy.Misc.Keyed
import AiBuddy.Misc.Program
import AiBuddy.Misc.Text

/-!
# The goal store (`services/goals/store.py`)

One goal job and what it writes: its own document, the goal, the goal's messages and its plan
versions. Timestamps and the fields that no job reads are left out, as are the collections of
evidence, research and reviews. Every write under a lease carries the lease's token
(`services/queue/mongo_fence.py`).
-/

namespace AiBuddy.Goals

open Program

structure Step where
  stepId : String
  prompt : String
  control : String
  findings : List String := []
  milestones : List String := []
  more : String := ""
  deriving DecidableEq

structure Plan where
  version : Int
  summary : String
  recommendation : String
  milestones : List String
  days : List String
  more : String := ""
  deriving DecidableEq

/-- The fields of a goal that the jobs draft. The step, the status and the plan are not among
them. -/
inductive DraftField where
  | understanding | contextProfile | pipelineState | goalType | title | description | category
  | audience | targetMetric | timeframe | successCriteria | measurementType
  | availableHoursPerWeek | constraints | missingMaterial | completeness | gaps | researchSummary
  | validationReport | baselineValue | targetValue | measurementDirection
  deriving DecidableEq

abbrev Draft := List (DraftField × String)

structure DurableStep where
  step : Step
  draft : Draft
  status : String
  assistantText : String
  model : String
  plan : Option Plan := none
  deriving DecidableEq

inductive JobStatus where
  | queued
  | running
  | ready
  | failed
  | other (text : String)
  deriving DecidableEq

/-- A document of `goal_jobs`. -/
structure Job where
  status : JobStatus
  ownerId : String := ""
  processingOwner : String := ""
  processingFence : Option Int := none
  processingAttempt : Nat := 0
  durableStep : Option DurableStep := none
  error : String := ""
  model : String := ""
  deriving DecidableEq

/-- A document of `goals`. -/
structure Goal where
  id : String
  ownerId : String
  status : String
  latestStep : Option Step := none
  proposedPlan : Option Plan := none
  draft : Draft := []
  appliedEvidenceOps : List String := []
  evidenceVersion : Nat := 0
  processingFence : Option Int := none
  deriving DecidableEq

/-- A document of `goal_messages`. -/
structure Message where
  jobId : String
  stepId : String
  ownerId : String
  role : String
  text : String
  control : String
  deriving DecidableEq

/-- What `update_one` finds a message by. -/
def Message.key (message : Message) : String × String := (message.jobId, message.stepId)

/-- A document of `goal_plan_versions`. -/
structure PlanVersion where
  version : Int
  ownerId : String
  status : String
  plan : Plan
  operationId : String
  processingFence : Option Int := none
  deriving DecidableEq

def planVersionNumber (plan : Plan) : Int := if plan.version ≥ 1 then plan.version else 1

def planOperationId (goalId jobId : String) (version : Int) : String :=
  "goal-plan:" ++ goalId ++ ":" ++ jobId ++ ":" ++ version.repr

inductive Entry where
  /-- `handle` goes on past `claim`. -/
  | passed (token : Int)
  | called (token : Int)
  /-- A write of `durableStep` landed. -/
  | stored (token : Int)
  deriving DecidableEq

structure State where
  job : Option Job
  goal : Option Goal
  messages : List Message := []
  versions : List PlanVersion := []
  log : List Entry := []
  deriving DecidableEq

def fenceValue (fence : Option Int) : Int := fence.getD 0

def fenceClause (fence : Option Int) (token : Int) : Bool := fence.all (· ≤ token)

/-- The fields that `save_step`, `fail` and the evidence jobs set on the job. -/
inductive JobUpdate where
  | durableStep (durable : DurableStep)
  | ready (model : String)
  | evidenceReady
  | failed (message : String)
  deriving DecidableEq

def Job.update (update : JobUpdate) (job : Job) : Job :=
  match update with
  | .durableStep durable => { job with durableStep := some durable }
  | .ready model => { job with status := .ready, error := "", model }
  | .evidenceReady => { job with status := .ready }
  | .failed message => { job with status := .failed, error := Text.take 500 message }

/-- The fields that `save_step`, `patch_goal` and the evidence jobs set on the goal. -/
inductive GoalUpdate where
  | step (durable : DurableStep)
  | patch (draft : Draft)
  | evidence (operationId : String)
  deriving DecidableEq

def Goal.put (goal : Goal) (draft : Draft) : Goal :=
  { goal with
    draft := draft.foldl (fun fields field => Keyed.replaceOrAppend Prod.fst field fields)
      goal.draft }

def Goal.get? (goal : Goal) (field : DraftField) : Option String :=
  (Keyed.find? Prod.fst field goal.draft).map Prod.snd

/-- The filter of an update, but for `_id` and the fence. -/
def Goal.accepts (goal : Goal) : GoalUpdate → Bool
  | .evidence operationId => operationId ∉ goal.appliedEvidenceOps
  | _ => true

def Goal.update (update : GoalUpdate) (goal : Goal) : Goal :=
  match update with
  | .step durable =>
    { goal.put durable.draft with
      latestStep := some durable.step
      status := durable.status
      proposedPlan := durable.plan.or goal.proposedPlan }
  | .patch draft => goal.put draft
  | .evidence operationId =>
    { goal with
      evidenceVersion := goal.evidenceVersion + 1
      appliedEvidenceOps := goal.appliedEvidenceOps ++ [operationId] }

namespace State

variable (s : State)

def record (entry : Entry) : State := { s with log := entry :: s.log }

def setJob (job : Job) : State := { s with job := some job }

def updateJob (token : Int) (update : JobUpdate) (job : Job) : State :=
  let s' := s.setJob { job.update update with processingFence := some token }
  match update with
  | .durableStep _ => s'.record (.stored token)
  | _ => s'

def updateGoal (token : Int) (update : GoalUpdate) (goal : Goal) : State :=
  { s with goal := some { goal.update update with processingFence := some token } }

def putMessage (message : Message) : State :=
  { s with messages := Keyed.replaceOrAppend Message.key message s.messages }

def putVersion (version : PlanVersion) : State :=
  { s with versions := Keyed.replaceOrAppend PlanVersion.version version s.versions }

def version? (version : Int) : Option PlanVersion :=
  Keyed.find? PlanVersion.version version s.versions

end State

inductive Failure where
  | staleOwnership (reason : String)
  | leavePending
  | nonRetryable (message : String)
  | duplicateKey
  /-- Any other exception, that of a Mongo command among them. -/
  | exception
  deriving DecidableEq

structure ClarifyBuilt where
  step : Step
  draft : Draft
  status : String
  model : String
  deriving DecidableEq

structure BaselineBuilt where
  summary : String
  findings : List String
  model : String
  deriving DecidableEq

/-- What `build_plan` returns, its days already made of the milestones where it had none. -/
structure PlanBuilt where
  version : Int
  summary : String
  recommendation : String
  milestones : List String
  days : List String
  gaps : String
  researchSummary : String
  validationReport : String
  measurementType : String
  baselineValue : Option String
  targetValue : Option String
  measurementDirection : Option String
  more : String
  model : String
  deriving DecidableEq

inductive Builder where
  | clarify
  | baseline
  | plan
  | review
  deriving DecidableEq

def Builder.Built : Builder → Type
  | .clarify => ClarifyBuilt
  | .baseline => BaselineBuilt
  | .plan => PlanBuilt
  | .review => Unit

inductive Command : Type → Type where
  /-- `require_active_lease()` and `lease_fence_token()`. -/
  | lease : Command Unit
  | startJob (owner : String) (token : Int) : Command (Option Job)
  | findJob : Command (Option Job)
  | recoverJob (seen : Option Int) (owner : String) (token : Int) : Command (Option Job)
  /-- The point where `handle` goes on past `claim`. -/
  | passClaim : Command Unit
  | findGoal : Command (Option Goal)
  | findMessages : Command (List Message)
  | build (builder : Builder) (goal : Goal) (messages : List Message) : Command builder.Built
  | upsertEvidence : Command Unit
  | updateJob (update : JobUpdate) (token : Int) : Command Nat
  | updateGoal (update : GoalUpdate) (token : Int) : Command Nat
  | upsertMessage (message : Message) : Command Unit
  | updateVersion (version : PlanVersion) (token : Int) : Command Nat
  | findVersion (version : Int) : Command (Option PlanVersion)
  | upsertVersion (version : PlanVersion) (token : Int) : Command Unit
  | insertVersion (version : PlanVersion) : Command Bool

def seenClause (seen fence : Option Int) : Bool :=
  match seen with
  | none => fence = none || fence = some 0
  | some _ => fence = seen

abbrev Builders := (builder : Builder) → builder.Built

def run {α : Type} (builders : Builders) (attempt : Int) (command : Command α) (s : State) :
    Except Failure α × State :=
  match command with
  | .lease => (.ok (), s)
  | .startJob owner token =>
    match s.job with
    | some job =>
      if job.status = .queued then
        (.ok (some job), s.setJob { job with
          status := .running, processingOwner := owner, processingFence := some token,
          processingAttempt := job.processingAttempt + 1 })
      else (.ok none, s)
    | none => (.ok none, s)
  | .findJob => (.ok s.job, s)
  | .recoverJob seen owner token =>
    match s.job with
    | some job =>
      if job.status = .running && seenClause seen job.processingFence then
        (.ok (some job), s.setJob { job with
          processingOwner := owner, processingFence := some token,
          processingAttempt := job.processingAttempt + 1 })
      else (.ok none, s)
    | none => (.ok none, s)
  | .passClaim => (.ok (), s.record (.passed attempt))
  | .findGoal => (.ok s.goal, s)
  | .findMessages => (.ok s.messages, s)
  | .build builder _ _ => (.ok (builders builder), s.record (.called attempt))
  | .upsertEvidence => (.ok (), s)
  | .updateJob update token =>
    match s.job with
    | some job =>
      if fenceClause job.processingFence token then (.ok 1, s.updateJob token update job)
      else (.ok 0, s)
    | none => (.ok 0, s)
  | .updateGoal update token =>
    match s.goal with
    | some goal =>
      if fenceClause goal.processingFence token && goal.accepts update then
        (.ok 1, s.updateGoal token update goal)
      else (.ok 0, s)
    | none => (.ok 0, s)
  | .upsertMessage message => (.ok (), s.putMessage message)
  | .updateVersion version token =>
    match s.version? version.version with
    | some stored =>
      if fenceClause stored.processingFence token then
        (.ok 1, s.putVersion { version with processingFence := some token })
      else (.ok 0, s)
    | none => (.ok 0, s)
  | .findVersion version => (.ok (s.version? version), s)
  | .upsertVersion version token =>
    (.ok (), s.putVersion { version with processingFence := some token })
  | .insertVersion version =>
    if (s.version? version.version).isSome then (.ok false, s) else (.ok true, s.putVersion version)

abbrev Working (α : Type) := Raising (Remote Failure Command) Failure α

def send {α : Type} (command : Command α) : Working α := Program.send id command

def rejectIfNewer {δ : Type} (probe : Command (Option δ)) (fence : δ → Option Int) (token : Int) :
    Working Unit := do
  match ← send probe with
  | some doc => if fenceValue (fence doc) > token then throw (.staleOwnership "stale_fence")
  | none => return ()

/-- `fenced_update_one` without an upsert. -/
def fencedUpdateOne {δ : Type} (update : Command Nat) (probe : Command (Option δ))
    (fence : δ → Option Int) (token : Int) : Working Unit := do
  send .lease
  let matched ← send update
  if matched > 0 then return ()
  rejectIfNewer probe fence token

def updateJob (update : JobUpdate) (token : Int) : Working Unit :=
  fencedUpdateOne (.updateJob update token) .findJob Job.processingFence token

def updateGoal (update : GoalUpdate) (token : Int) : Working Unit :=
  fencedUpdateOne (.updateGoal update token) .findGoal Goal.processingFence token

/-- `fenced_update_one(goal_plan_versions, ..., upsert=True)`. -/
def upsertVersion (version : PlanVersion) (token : Int) : Working Unit := do
  send .lease
  let matched ← send (.updateVersion version token)
  if matched > 0 then return ()
  rejectIfNewer (.findVersion version.version) PlanVersion.processingFence token
  match ← attempt (send (.upsertVersion version token)) with
  | .ok _ => return ()
  | .error error =>
    if error = .duplicateKey then
      rejectIfNewer (.findVersion version.version) PlanVersion.processingFence token
    throw error

inductive Claim where
  | missing
  | done (job : Job)
  | terminal
  | busy
  | owned (job : Job)
  | claimed (job : Job)
  | recovered (job : Job)
  deriving DecidableEq

/-- The end of `claim`, where another attempt has changed the fence. -/
def claimAgain (token : Int) : Working Claim := do
  match ← send .findJob with
  | none => return .missing
  | some again =>
    if again.status = .ready then return .done again
    if again.status = .failed then return .terminal
    if fenceValue again.processingFence = token then return .owned again
    return .busy

/-- `claim(job_id)`, for a lease with a token. -/
def claim (owner : String) (token : Int) : Working Claim := do
  send .lease
  match ← send (.startJob owner token) with
  | some started => return .claimed started
  | none =>
    match ← send .findJob with
    | none => return .missing
    | some existing =>
      match existing.status with
      | .ready => return .done existing
      | .running =>
        if fenceValue existing.processingFence > token then return .busy
        if fenceValue existing.processingFence = token then return .owned existing
        match ← send (.recoverJob existing.processingFence owner token) with
        | some recovered => return .recovered recovered
        | none => claimAgain token
      | _ => return .terminal

/-- The row that `save_plan_version` and `reconcile_missing_plan_version` write. -/
def planVersion (ownerId goalId jobId : String) (plan : Plan) : PlanVersion where
  version := planVersionNumber plan
  ownerId := ownerId
  status := "proposed"
  plan := plan
  operationId := planOperationId goalId jobId (planVersionNumber plan)

def savePlanVersion (goal : Goal) (jobId : String) (plan : Plan) (token : Int) : Working Unit := do
  let version := planVersion goal.ownerId goal.id jobId plan
  match ← attempt (upsertVersion version token) with
  | .ok _ => return ()
  | .error .duplicateKey =>
    let existing ← send (.findVersion version.version)
    send .lease
    match existing with
    | some existing =>
      if fenceValue existing.processingFence > token then throw (.staleOwnership "stale_fence")
    | none => return ()
  | .error error => throw error

def stepMessage (goal : Goal) (jobId : String) (durable : DurableStep) : Message where
  jobId := jobId
  stepId := durable.step.stepId
  ownerId := goal.ownerId
  role := "assistant"
  text := Text.take 4000 durable.assistantText
  control := durable.step.control

def saveStep (jobId : String) (step : DurableStep) (token : Int) : Working Unit := do
  send .lease
  match ← send .findGoal with
  | none => return ()
  | some goal =>
    let durable := { step with assistantText := Text.take 4000 step.assistantText }
    updateJob (.durableStep durable) token
    updateGoal (.step step) token
    send (.upsertMessage (stepMessage goal jobId step))
    match step.plan with
    | some plan => savePlanVersion goal jobId plan token
    | none => pure ()
    updateJob (.ready step.model) token

/-- `reconcile_missing_plan_version(job)`, for the goal of the job. -/
def reconcileMissingPlanVersion (goalId jobId : String) (job : Job) : Working Bool := do
  match job.durableStep.bind DurableStep.plan with
  | none => return false
  | some plan =>
    if plan.milestones.isEmpty then return false
    let version := planVersion job.ownerId goalId jobId plan
    match ← send (.findVersion version.version) with
    | some _ => return false
    | none =>
      match ← attempt (send (.insertVersion version)) with
      | .ok inserted => return inserted
      | .error .duplicateKey => return false
      | .error error => throw error

def fail (message : String) (token : Int) : Working Unit := do
  send .lease
  updateJob (.failed message) token

end AiBuddy.Goals
