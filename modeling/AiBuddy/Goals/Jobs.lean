import AiBuddy.Goals.Store

/-!
# Goal jobs (`services/goals/jobs.py`)

`GoalJobHandler.handle` under a lease, with the ids and the job type already read from the event.
What the model makes of a goal is the reply of a builder.
-/

namespace AiBuddy.Goals

open Program

inductive JobType where
  | baseline
  | plan
  | research
  | evidence
  | review
  | clarify
  deriving DecidableEq

/-- The types whose jobs end with `save_step`. -/
def JobType.savesStep : JobType → Bool
  | .evidence | .review => false
  | _ => true

structure Attempt where
  goalId : String
  jobId : String
  jobType : JobType
  owner : String := ""
  token : Int
  deriving DecidableEq

def clarifyStep (built : ClarifyBuilt) : DurableStep where
  step := built.step
  draft := built.draft
  status := built.status
  assistantText := built.step.prompt
  model := built.model

/-- The step and the draft of `_baseline`. -/
def baselineStep (built : BaselineBuilt) : DurableStep where
  step := {
    stepId := "confirm-baseline"
    prompt := built.summary
    control := "confirm_baseline"
    findings := built.findings }
  draft := [(.completeness, "80"), (.pipelineState, "READY_FOR_RESEARCH")]
  status := "CONTEXT_ANALYSIS"
  assistantText := built.summary
  model := built.model

def PlanBuilt.summaryText (built : PlanBuilt) : String :=
  let summary := Text.strip built.summary
  if summary ≠ "" then summary else "Here is a practical plan for this goal."

/-- The plan of `_plan`. -/
def PlanBuilt.plan (built : PlanBuilt) : Plan where
  version := if built.version ≠ 0 then built.version else 1
  summary := built.summaryText
  recommendation := if built.recommendation ≠ "" then built.recommendation else built.summaryText
  milestones := built.milestones
  days := built.days
  more := built.more

def newField (goal : Goal) (field : DraftField) (value : Option String) : Draft :=
  match value with
  | some value => if (goal.get? field).isNone then [(field, value)] else []
  | none => []

/-- The draft of `_plan`. -/
def PlanBuilt.draft (built : PlanBuilt) (goal : Goal) : Draft :=
  [(.completeness, "90"), (.pipelineState, "READY"), (.gaps, built.gaps),
    (.researchSummary, built.researchSummary), (.validationReport, built.validationReport),
    (.measurementType, built.measurementType)] ++
    newField goal .baselineValue built.baselineValue ++
    newField goal .targetValue built.targetValue ++
    newField goal .measurementDirection built.measurementDirection

/-- The step of `_plan`. -/
def planStep (built : PlanBuilt) (goal : Goal) : DurableStep where
  step := {
    stepId := "plan-review"
    prompt := built.plan.recommendation
    control := "plan_review"
    milestones := built.milestones
    more := built.more }
  draft := built.draft goal
  status := "PLAN_REVIEW"
  assistantText := built.summaryText
  model := built.model
  plan := some built.plan

namespace Attempt

variable (attempt : Attempt)

def storeEvidence : Working Unit := do
  match ← Program.attempt (send .upsertEvidence) with
  | .ok _ | .error .duplicateKey => return ()
  | .error error => throw error

/-- `evidenceVersion` grows once for each operation id. -/
def countEvidence (kind : String) : Working Unit :=
  updateGoal (.evidence (kind ++ ":" ++ attempt.goalId ++ ":" ++ attempt.jobId)) attempt.token

def storeFindings : List String → Working Unit
  | [] => return ()
  | finding :: findings => do
    if Text.strip finding ≠ "" then storeEvidence
    storeFindings findings

def clarify (goal : Goal) : Working Unit := do
  let messages ← send .findMessages
  let built ← send (.build .clarify goal messages)
  saveStep attempt.jobId (clarifyStep built) attempt.token

def baseline (goal : Goal) : Working Unit := do
  let built ← send (.build .baseline goal [])
  storeFindings built.findings
  if built.findings.any fun finding => Text.strip finding ≠ "" then
    attempt.countEvidence "baseline"
  saveStep attempt.jobId (baselineStep built) attempt.token

def plan (goal : Goal) : Working Unit := do
  let messages ← send .findMessages
  updateGoal (.patch [(.pipelineState, "RESEARCHING")]) attempt.token
  let built ← send (.build .plan goal messages)
  if built.milestones.isEmpty || built.days.isEmpty then
    fail "The plan did not include any steps. Try again." attempt.token
    throw (.nonRetryable "goal plan missing milestones or steps")
  saveStep attempt.jobId (planStep built goal) attempt.token

def evidence : Working Unit := do
  storeEvidence
  attempt.countEvidence "space-evidence"
  updateJob .evidenceReady attempt.token

def review (goal : Goal) : Working Unit := do
  let _ ← send .findJob
  send (.build .review goal [])
  attempt.countEvidence "goal-review"
  updateJob .evidenceReady attempt.token

def work (goal : Goal) : Working Unit :=
  match attempt.jobType with
  | .baseline => attempt.baseline goal
  | .plan | .research => attempt.plan goal
  | .evidence => attempt.evidence
  | .review => attempt.review goal
  | .clarify => attempt.clarify goal

/-- An attempt that has claimed the job, `:44`. -/
def proceed (job : Job) : Working Unit := do
  send .passClaim
  match job.durableStep with
  | some durable =>
    saveStep attempt.jobId
      { durable with status := if durable.status ≠ "" then durable.status else "ACTIVE" }
      attempt.token
  | none =>
    match ← send .findGoal with
    | none =>
      fail "Goal not found." attempt.token
      throw (.nonRetryable ("goal not found: " ++ attempt.goalId))
    | some goal =>
      match ← Program.attempt (attempt.work goal) with
      | .ok _ => return ()
      | .error (.nonRetryable message) => throw (.nonRetryable message)
      | .error (.staleOwnership reason) => throw (.staleOwnership reason)
      | .error .leavePending => throw .leavePending
      | .error _ => fail "The goal step failed. Try again." attempt.token

def handle : Working Unit := do
  match ← claim attempt.owner attempt.token with
  | .missing => throw (.nonRetryable ("goal job not found: " ++ attempt.jobId))
  | .busy => throw .leavePending
  | .done job =>
    let _ ← reconcileMissingPlanVersion attempt.goalId attempt.jobId job
  | .terminal => return ()
  | .owned job | .claimed job | .recovered job => attempt.proceed job

def program : Program (Labelled Int (Remote Failure Command)) Unit :=
  labelled attempt.token (attempt.handle.run >>= fun _ => .ret ())

end Attempt

abbrev GoalCommand := Labelled Int (Remote Failure Command)

/-- What `build_review` may write: the goal's fence and the plan versions. -/
def Reviewed (s s' : State) : Prop :=
  ∃ fence versions, s' = { s with
    goal := s.goal.map fun goal => { goal with processingFence := fence }, versions }

/-- What a command of an attempt may be answered. A command is answered, or it raises, and then it
has taken effect or not. A lease may be lost, a builder may return or raise anything, and an upsert
may come upon a row that another has inserted. -/
def Performed {α : Type} (attempt : Int) (command : Command α) (s : State)
    (reply : Except Failure α) (s' : State) : Prop :=
  match command with
  | .lease => s' = s ∧ (reply = .ok () ∨ ∃ reason, reply = .error (.staleOwnership reason))
  | .passClaim => s' = s.record (.passed attempt) ∧ reply = .ok ()
  | .build .review _ _ => Reviewed (s.record (.called attempt)) s'
  | .build _ _ _ => s' = s.record (.called attempt)
  | .upsertEvidence => s' = s
  | .upsertVersion version token =>
    (∃ builders, Answers .exception (run builders attempt (.upsertVersion version token)) s reply
      s') ∨
      (s.version? version.version).isSome = true ∧ reply = .error .duplicateKey ∧ s' = s
  | command => ∃ builders, Answers .exception (run builders attempt command) s reply s'

def goalSemantics : Semantics GoalCommand State := fun command =>
  Remote.semantics (Performed command.label) command.command

def answer (builders : Builders) {β : Type} (command : GoalCommand β) (s : State) : β × State :=
  Remote.answer (fun inner s => run builders command.label inner s) command.command s

/-- The attempts at one job, each with a larger token than those before it. The counter of the
tokens starts at 1. -/
structure Attempts (jobId : String) (jobType : JobType) (attempts : List Attempt) : Prop where
  job : ∀ attempt ∈ attempts, attempt.jobId = jobId ∧ attempt.jobType = jobType
  positive : ∀ attempt ∈ attempts, 0 < attempt.token
  increasing : attempts.Pairwise fun earlier later => earlier.token < later.token

def goalPool (attempts : List Attempt) (start : State) : Pool GoalCommand Unit State :=
  ⟨attempts.map Attempt.program, start⟩

abbrev GoalRun (attempts : List Attempt) (start : State) (pool : Pool GoalCommand Unit State) :
    Prop :=
  Relation.ReflTransGen (Pool.Step goalSemantics (fun _ _ => False) (fun _ _ => False))
    (goalPool attempts start) pool

structure Queued (jobId : String) (s : State) : Prop where
  job : ∃ job, s.job = some job ∧ job.status = .queued ∧ job.durableStep = none
  messages : ∀ message ∈ s.messages, message.jobId ≠ jobId
  log : s.log = []

def State.GoalHolds (s : State) (durable : DurableStep) : Prop :=
  ∃ goal, s.goal = some goal ∧ goal.latestStep = some durable.step ∧
    ∀ plan, durable.plan = some plan → goal.proposedPlan = some plan

def Message.Shows (message : Message) (durable : DurableStep) : Prop :=
  message.role = "assistant" ∧ message.text = Text.take 4000 durable.assistantText ∧
    message.control = durable.step.control

def State.MessageHolds (s : State) (jobId : String) (durable : DurableStep) : Prop :=
  ∃ message, (s.messages.filter fun message => message.key = (jobId, durable.step.stepId)) =
    [message] ∧ message.Shows durable

def State.VersionHolds (s : State) (durable : DurableStep) : Prop :=
  ∀ plan, durable.plan = some plan →
    ∃ version, s.version? (planVersionNumber plan) = some version ∧ version.plan = plan

structure State.Applied (s : State) (jobId : String) (durable : DurableStep) : Prop where
  goal : s.GoalHolds durable
  message : s.MessageHolds jobId durable
  version : s.VersionHolds durable

/-- Once an attempt has stored the step, the model is called only by attempts with smaller
tokens. -/
def NoLaterCall (log : List Entry) : Prop :=
  ∀ newer token older token', log = newer ++ .called token :: older → .stored token' ∈ older →
    token < token'

/-- The tokens of the attempts that went on past `claim`. -/
def passedTokens (log : List Entry) : List Int :=
  log.filterMap fun
    | .passed token => some token
    | _ => none

/-- The Mongo writes of `save_step`. That of the plan version is an update and an upsert. -/
inductive StepWrite where
  | durableStep
  | goal
  | message
  | versionUpdate
  | versionUpsert
  | ready
  deriving DecidableEq

def StepWrite.is {α : Type} (write : StepWrite) (command : Command α) : Bool :=
  match command with
  | .updateJob (.durableStep _) _ => write = .durableStep
  | .updateGoal (.step _) _ => write = .goal
  | .upsertMessage _ => write = .message
  | .updateVersion _ _ => write = .versionUpdate
  | .upsertVersion _ _ => write = .versionUpsert
  | .updateJob (.ready _) _ => write = .ready
  | _ => false

/-- One write raises, having taken effect or not, and every other command is answered. -/
def answerRaising (builders : Builders) (attempt : Int) (write : StepWrite) (applied : Bool)
    {β : Type} (command : Remote Failure Command β) (s : State) : β × State :=
  Remote.answer (fun inner s =>
    if write.is inner then
      (.error .exception, if applied then (run builders attempt inner s).2 else s)
    else run builders attempt inner s) command s

/-- What `handle` leaves behind when a write of `save_step` raises. -/
def Attempt.raising (attempt : Attempt) (builders : Builders) (write : StepWrite) (applied : Bool)
    (s : State) : State :=
  (attempt.handle.run.eval (answerRaising builders attempt.token write applied) s).2

def Attempt.step (attempt : Attempt) (builders : Builders) (job : Job) (goal : Goal) :
    DurableStep :=
  match job.durableStep with
  | some durable =>
    { durable with status := if durable.status ≠ "" then durable.status else "ACTIVE" }
  | none =>
    match attempt.jobType with
    | .baseline => baselineStep (builders .baseline)
    | .plan | .research => planStep (builders .plan) goal
    | _ => clarifyStep (builders .clarify)

def Attempt.Builds (attempt : Attempt) (builders : Builders) : Prop :=
  attempt.jobType.savesStep = true ∧
    (attempt.jobType = .plan ∨ attempt.jobType = .research →
      (builders .plan : PlanBuilt).milestones ≠ [] ∧ (builders .plan : PlanBuilt).days ≠ [])

/-- The attempt may claim the job, and no document has a newer fence. Tokens start at 1. -/
structure Unfenced (attempt : Attempt) (s : State) (job : Job) (goal : Goal) : Prop where
  positive : 0 < attempt.token
  hasJob : s.job = some job
  claims : job.status = .queued ∨
    job.status = .running ∧ fenceValue job.processingFence ≤ attempt.token
  hasGoal : s.goal = some goal
  goalFence : fenceClause goal.processingFence attempt.token = true
  versions : ∀ row ∈ s.versions, fenceClause row.processingFence attempt.token = true

def Goal.shown (goal : Goal) : Option Step × String × Option Plan :=
  (goal.latestStep, goal.status, goal.proposedPlan)

def Untouched (s s' : State) : Prop :=
  s'.goal.map Goal.shown = s.goal.map Goal.shown ∧ s'.messages = s.messages ∧
    s'.versions = s.versions

/-- A failed job has left the goal alone, and any other is still running, with its step. -/
def NeverHalfApplied (s s' : State) : Prop :=
  ∃ job, s'.job = some job ∧
    if job.status = .failed then Untouched s s'
    else job.status = .running ∧ job.durableStep.isSome = true

def StepWrite.Issued (write : StepWrite) (s : State) (step : DurableStep) : Prop :=
  match write with
  | .versionUpdate => step.plan.isSome = true
  | .versionUpsert => ∃ plan, step.plan = some plan ∧ s.version? (planVersionNumber plan) = none
  | _ => True

def StepWrite.writesGoal (applied : Bool) : StepWrite → Bool
  | .durableStep => false
  | .goal => applied
  | _ => true

def StepWrite.writesMessage (applied : Bool) : StepWrite → Bool
  | .durableStep | .goal => false
  | .message => applied
  | _ => true

def StepWrite.writesVersion (applied found : Bool) : StepWrite → Bool
  | .versionUpdate => applied && found
  | .versionUpsert => applied
  | .ready => true
  | _ => false

def Attempt.versionRow (attempt : Attempt) (goal : Goal) (plan : Plan) : PlanVersion :=
  { planVersion goal.ownerId goal.id attempt.jobId plan with
    processingFence := some attempt.token }

structure StepWrite.Spares (write : StepWrite) (applied : Bool) (attempt : Attempt) (s : State)
    (goal : Goal) (step : DurableStep) : Prop where
  goalHas : write.writesGoal applied = true →
    (goal.update (.step step)).shown = goal.shown
  messageHas : write.writesMessage applied = true →
    Keyed.find? Message.key (stepMessage goal attempt.jobId step).key s.messages =
      some (stepMessage goal attempt.jobId step)
  versionHas : ∀ plan, step.plan = some plan →
    write.writesVersion applied (s.version? (planVersionNumber plan)).isSome = true →
    s.version? (planVersionNumber plan) = some (attempt.versionRow goal plan)

end AiBuddy.Goals
