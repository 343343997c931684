import AiBuddy.Goals.Jobs

/-!
# Evidence of goals (`services/goals/jobs.py`)

The goal jobs of all goals over one database, with the rows of `goal_evidence`. What an attempt
does to its own job and goal is that of `AiBuddy.Goals`, issued to the documents of the two ids.
The unique indexes of `ensure_idempotency_indexes` are in place.
-/

namespace AiBuddy.Goals.Evidence

open Program

/-- A document of `goals`. -/
structure GoalDoc where
  goal : Goal
  /-- `str(item.get("title") or "")` of the milestones of `approvedPlan`. -/
  approvedMilestones : List String := []
  deriving DecidableEq

/-- What `_store_findings` and `_evidence` find a row of `goal_evidence` by, and what the index
`goal_evidence_identity` keeps distinct. -/
structure EvidenceKey where
  goalId : String
  sourceType : String
  sourceId : String
  sourceRevision : String
  evidenceKey : String
  deriving DecidableEq

/-- A document of `goal_evidence`. -/
structure EvidenceRow where
  key : EvidenceKey
  ownerId : String
  category : String
  verification : String
  text : String
  milestoneTitle : String
  processingFence : Option Int := none
  deriving DecidableEq

/-- What tells the rows of `goal_evidence` apart. -/
def EvidenceRow.identity (row : EvidenceRow) : EvidenceKey :=
  { row.key with evidenceKey := row.category }

/-- A finding of `build_baseline`. A field that is not there is empty. -/
structure Finding where
  text : String
  sourceType : String := ""
  sourceId : String := ""
  category : String := ""
  deriving DecidableEq

structure Baseline where
  summary : String
  findings : List Finding
  model : String
  deriving DecidableEq

structure Payload where
  title : String := ""
  status : String := ""
  sourceType : String := ""
  sourceId : String := ""
  sourceRevision : String := ""
  deriving DecidableEq

/-- An operation that has been added to `appliedEvidenceOps`, and the job that has added it. -/
structure Counted where
  jobId : String
  goalId : String
  operationId : String
  deriving DecidableEq

structure Database where
  goals : String → Option GoalDoc
  jobs : String → Option Job
  messages : String → List Message := fun _ => []
  versions : String → List PlanVersion := fun _ => []
  evidence : List EvidenceRow := []
  counted : List Counted := []

namespace Database

variable (db : Database)

def view (goalId jobId : String) : State where
  job := db.jobs jobId
  goal := (db.goals goalId).map GoalDoc.goal
  messages := db.messages goalId
  versions := db.versions goalId

def operations (goalId : String) : List String :=
  ((db.goals goalId).map fun doc => doc.goal.appliedEvidenceOps).getD []

def added (goalId : String) (s : State) : List String :=
  ((s.goal.map Goal.appliedEvidenceOps).getD []).drop (db.operations goalId).length

def put (goalId jobId : String) (s : State) : Database :=
  { db with
    goals := fun id =>
      if id = goalId then
        (db.goals id).bind fun doc => s.goal.map fun goal => { doc with goal }
      else db.goals id
    jobs := fun id => if id = jobId then s.job else db.jobs id
    messages := fun id => if id = goalId then s.messages else db.messages id
    versions := fun id => if id = goalId then s.versions else db.versions id
    counted := db.counted ++ (db.added goalId s).map (⟨jobId, goalId, ·⟩) }

def row? (key : EvidenceKey) : Option EvidenceRow := Keyed.find? EvidenceRow.key key db.evidence

def putRow (row : EvidenceRow) (token : Int) : Database :=
  { db with
    evidence := Keyed.replaceOrAppend EvidenceRow.key { row with processingFence := some token }
      db.evidence }

end Database

inductive Direct : Type → Type where
  | findGoal (goalId : String) : Direct (Option GoalDoc)
  | buildBaseline (goal : GoalDoc) : Direct Baseline
  | buildReview (goalId : String) : Direct Unit
  | updateEvidence (row : EvidenceRow) (token : Int) : Direct Nat
  | findEvidence (key : EvidenceKey) : Direct (Option EvidenceRow)
  | upsertEvidence (row : EvidenceRow) (token : Int) : Direct Unit

inductive Command (α : Type) where
  /-- A command on the documents of a goal and one of its jobs. -/
  | document (goalId jobId : String) (command : Goals.Command α)
  | direct (command : Direct α)

def runDirect {α : Type} (baseline : Baseline) (command : Direct α) (db : Database) :
    Except Failure α × Database :=
  match command with
  | .findGoal goalId => (.ok (db.goals goalId), db)
  | .buildBaseline _ => (.ok baseline, db)
  | .buildReview _ => (.ok (), db)
  | .updateEvidence row token =>
    match db.row? row.key with
    | some stored =>
      if fenceClause stored.processingFence token then (.ok 1, db.putRow row token)
      else (.ok 0, db)
    | none => (.ok 0, db)
  | .findEvidence key => (.ok (db.row? key), db)
  | .upsertEvidence row token => (.ok (), db.putRow row token)

def run {α : Type} (builders : Builders) (baseline : Baseline) (command : Command α)
    (db : Database) : Except Failure α × Database :=
  match command with
  | .document goalId jobId command =>
    let (reply, s) := Goals.run builders 0 command (db.view goalId jobId)
    (reply, db.put goalId jobId s)
  | .direct command => runDirect baseline command db

abbrev Storing (α : Type) := Raising (Remote Failure Command) Failure α

def send {α : Type} (command : Direct α) : Storing α := Program.send id (.direct command)

def toDocument (goalId jobId : String) {β : Type} :
    Remote Failure Goals.Command β → Remote Failure Command β
  | .send command => .send (.document goalId jobId command)

def onDocuments {α : Type} (goalId jobId : String) (prog : Working α) : Storing α :=
  ExceptT.mk (prog.run.hoist (toDocument goalId jobId))

/-- `_reject_if_newer`, `mongo_fence.py:78`, for a row of evidence. -/
def rejectIfNewer (key : EvidenceKey) (token : Int) : Storing Unit := do
  match ← send (.findEvidence key) with
  | some row =>
    if fenceValue row.processingFence > token then throw (.staleOwnership "stale_fence")
  | none => return ()

structure Attempt extends Goals.Attempt where
  payload : Payload := {}
  deriving DecidableEq

namespace Attempt

variable (attempt : Attempt)

def onDocuments {α : Type} (prog : Working α) : Storing α :=
  Evidence.onDocuments attempt.goalId attempt.jobId prog

/-- `fenced_update_one(goal_evidence, ..., upsert=True)`. -/
def fencedUpsert (row : EvidenceRow) : Storing Unit := do
  attempt.onDocuments (Goals.send .lease)
  let matched ← send (.updateEvidence row attempt.token)
  if matched > 0 then return ()
  rejectIfNewer row.key attempt.token
  match ← Program.attempt (send (.upsertEvidence row attempt.token)) with
  | .ok _ => return ()
  | .error error =>
    if error = .duplicateKey then rejectIfNewer row.key attempt.token
    throw error

/-- `try: ... except DuplicateKeyError: pass`. -/
def storeEvidence (row : EvidenceRow) : Storing Unit := do
  match ← Program.attempt (attempt.fencedUpsert row) with
  | .ok _ | .error .duplicateKey => return ()
  | .error error => throw error

end Attempt

/-- The row of a finding, `:250`. -/
def findingRow (goal : GoalDoc) (finding : Finding) : EvidenceRow :=
  let category := if finding.category ≠ "" then finding.category else "OUTPUT"
  { key :=
      { goalId := goal.goal.id
        sourceType := if finding.sourceType ≠ "" then finding.sourceType else "baseline"
        sourceId := if finding.sourceId ≠ "" then finding.sourceId else "baseline"
        sourceRevision := "baseline"
        evidenceKey := category }
    ownerId := goal.goal.ownerId
    category
    verification := if finding.sourceId ≠ "" then "SOURCE_SUPPORTED" else "UNVERIFIED"
    text := Text.take 1000 (Text.strip finding.text)
    milestoneTitle := "" }

def Payload.titleText (payload : Payload) : String :=
  Text.strip (if payload.title ≠ "" then payload.title else "Item")

def Payload.source (payload : Payload) : String :=
  if payload.sourceType ≠ "" then payload.sourceType else "task"

/-- The category and the text of `_evidence`. -/
def Payload.entry (payload : Payload) : String × String :=
  let title := payload.titleText
  if payload.source = "note" then ("INTENT", "Space note “" ++ title ++ "” was updated.")
  else if payload.source = "transcript" then ("OUTPUT", "Space transcript: " ++ title)
  else if payload.status = "reopened" then
    ("CORRECTION", "Space task “" ++ title ++ "” was reopened.")
  else if payload.status = "completed" ∨ payload.status = "done" then
    ("OUTPUT", "Space task “" ++ title ++ "” was completed.")
  else
    ("COMMITMENT", "Space task “" ++ title ++ "” was " ++
      (if payload.status ≠ "" then payload.status else "added") ++ ".")

def milestoneOf (titles : List String) (title : String) : String :=
  (titles.find? fun name => name ≠ "" ∧
    (Text.contains (Text.lower name) (Text.lower title) ∨
      Text.contains (Text.lower title) (Text.lower name))).getD ""

/-- The row of `_evidence`. -/
def payloadRow (goal : GoalDoc) (jobId : String) (payload : Payload) : EvidenceRow where
  key :=
    { goalId := goal.goal.id
      sourceType := payload.source
      sourceId := if payload.sourceId ≠ "" then payload.sourceId else jobId
      sourceRevision := if payload.sourceRevision ≠ "" then payload.sourceRevision else "1"
      evidenceKey := payload.entry.1 }
  ownerId := goal.goal.ownerId
  category := payload.entry.1
  verification := "SOURCE_SUPPORTED"
  text := Text.take 1000 payload.entry.2
  milestoneTitle := milestoneOf goal.approvedMilestones payload.titleText

/-- `baseline_evidence_operation_id`, `space_evidence_operation_id` and
`review_evidence_operation_id`, `store.py:49`. Other jobs add no operation. -/
def operationId (jobType : JobType) (goalId jobId : String) : String :=
  let kind :=
    match jobType with
    | .baseline => "baseline"
    | .evidence => "space-evidence"
    | .review => "goal-review"
    | _ => ""
  kind ++ ":" ++ goalId ++ ":" ++ jobId

namespace Attempt

variable (attempt : Attempt)

def operation : String := operationId attempt.jobType attempt.goalId attempt.jobId

/-- The update with `$inc` and `$addToSet`. -/
def countEvidence : Storing Unit :=
  attempt.onDocuments (updateGoal (.evidence attempt.operation) attempt.token)

def storeRows (goal : GoalDoc) : List Finding → Storing Unit
  | [] => return ()
  | finding :: findings => do
    if Text.strip finding.text ≠ "" then attempt.storeEvidence (findingRow goal finding)
    storeRows goal findings

def storeFindings (goal : GoalDoc) (findings : List Finding) : Storing Unit := do
  attempt.storeRows goal findings
  if findings.any fun finding => Text.strip finding.text ≠ "" then attempt.countEvidence

/-- The step of `_baseline`. -/
def step (built : Baseline) : DurableStep :=
  baselineStep ⟨built.summary, built.findings.map Finding.text, built.model⟩

def baseline (goal : GoalDoc) : Storing Unit := do
  let built ← send (.buildBaseline goal)
  attempt.storeFindings goal built.findings
  attempt.onDocuments (saveStep attempt.jobId (step built) attempt.token)

def evidence (goal : GoalDoc) : Storing Unit := do
  attempt.storeEvidence (payloadRow goal attempt.jobId attempt.payload)
  attempt.countEvidence
  attempt.onDocuments (updateJob .evidenceReady attempt.token)

def review : Storing Unit := do
  let _ ← attempt.onDocuments (Goals.send .findJob)
  send (.buildReview attempt.goalId)
  attempt.countEvidence
  attempt.onDocuments (updateJob .evidenceReady attempt.token)

def work (goal : GoalDoc) : Storing Unit :=
  match attempt.jobType with
  | .baseline => attempt.baseline goal
  | .evidence => attempt.evidence goal
  | .review => attempt.review
  | .plan | .research => attempt.onDocuments (attempt.toAttempt.plan goal.goal)
  | .clarify => attempt.onDocuments (attempt.toAttempt.clarify goal.goal)

/-- An attempt that has claimed the job, `:44`. -/
def proceed (job : Job) : Storing Unit := do
  match job.durableStep with
  | some durable =>
    attempt.onDocuments (saveStep attempt.jobId
      { durable with status := if durable.status ≠ "" then durable.status else "ACTIVE" }
      attempt.token)
  | none =>
    match ← send (.findGoal attempt.goalId) with
    | none =>
      attempt.onDocuments (fail "Goal not found." attempt.token)
      throw (.nonRetryable ("goal not found: " ++ attempt.goalId))
    | some goal =>
      match ← Program.attempt (attempt.work goal) with
      | .ok _ => return ()
      | .error (.nonRetryable message) => throw (.nonRetryable message)
      | .error (.staleOwnership reason) => throw (.staleOwnership reason)
      | .error .leavePending => throw .leavePending
      | .error _ => attempt.onDocuments (fail "The goal step failed. Try again." attempt.token)

def handle : Storing Unit := do
  match ← attempt.onDocuments (claim attempt.owner attempt.token) with
  | .missing => throw (.nonRetryable ("goal job not found: " ++ attempt.jobId))
  | .busy => throw .leavePending
  | .done job =>
    let _ ← attempt.onDocuments
      (reconcileMissingPlanVersion attempt.goalId attempt.jobId job)
  | .terminal => return ()
  | .owned job | .claimed job | .recovered job => attempt.proceed job

end Attempt

def Later (fence fence' : Option Int) : Prop :=
  ∀ token, fenceClause fence' token = true → fenceClause fence token = true

/-- What `build_review` writes to the goal: other fields, and a later fence. -/
def Reviewed (goalId : String) (db db' : Database) : Prop :=
  ∃ fence milestones versions,
    (∀ doc, db.goals goalId = some doc → Later doc.goal.processingFence fence) ∧
    db' = { db with
      goals := fun id =>
        if id = goalId then
          (db.goals id).map fun doc =>
            { goal := { doc.goal with processingFence := fence }, approvedMilestones := milestones }
        else db.goals id
      versions := fun id => if id = goalId then versions else db.versions id }

/-- What a command of a job may be answered. A command is answered, or it raises, and then it has
taken effect or not. An upsert may come upon a row that another has inserted. -/
def PerformedDirect {α : Type} (command : Direct α) (db : Database) (reply : Except Failure α)
    (db' : Database) : Prop :=
  match command with
  | .buildBaseline _ => db' = db
  | .buildReview goalId => db' = db ∨ Reviewed goalId db db'
  | .upsertEvidence row token =>
    (∃ baseline, Answers .exception (runDirect baseline (.upsertEvidence row token)) db reply db') ∨
      (db.row? row.key).isSome = true ∧ reply = .error .duplicateKey ∧ db' = db
  | command => ∃ baseline, Answers .exception (runDirect baseline command) db reply db'

def Performed {α : Type} (command : Command α) (db : Database) (reply : Except Failure α)
    (db' : Database) : Prop :=
  match command with
  | .document goalId jobId command =>
    ∃ s, Goals.Performed 0 command (db.view goalId jobId) reply s ∧ db' = db.put goalId jobId s
  | .direct command => PerformedDirect command db reply db'

def semantics : Semantics (Remote Failure Command) Database := Remote.semantics Performed

abbrev Jobs := String → Option (String × JobType)

def Attempt.At (attempt : Attempt) (jobs : Jobs) : Prop :=
  jobs attempt.jobId = some (attempt.goalId, attempt.jobType)

/-- Attempts at the jobs start at any time, their commands come in any order, and any of them may
stop for good. -/
abbrev EvidenceRun (jobs : Jobs) (start : Database)
    (pool : Pool (Remote Failure Command) (Except Failure Unit) Database) : Prop :=
  Pool.Run semantics (fun _ prog => ∃ attempt : Attempt, attempt.At jobs ∧
    prog = attempt.handle.run)
    (fun _ _ => False) start pool

/-- No step is stored for the jobs that save none, and such a job is ready only where its operation
has been applied. -/
structure Database.JobsSettled (jobs : Jobs) (db : Database) : Prop where
  noStep : ∀ jobId goalId jobType job, jobs jobId = some (goalId, jobType) →
    jobType.savesStep = false → db.jobs jobId = some job → job.durableStep = none
  applied : ∀ jobId goalId jobType job, jobs jobId = some (goalId, jobType) →
    jobType.savesStep = false → db.jobs jobId = some job → job.status = .ready →
    operationId jobType goalId jobId ∈ db.operations goalId

structure Starts (jobs : Jobs) (db : Database) : Prop where
  settled : db.JobsSettled jobs
  rows : (db.evidence.map EvidenceRow.key).Nodup
  categories : ∀ row ∈ db.evidence, row.category = row.key.evidenceKey
  counted : db.counted = []

/-- Since `start`, `evidenceVersion` of a goal has grown by the number of its new operations. -/
def VersionCounts (start db : Database) : Prop :=
  ∀ goalId before, start.goals goalId = some before → ∃ doc, db.goals goalId = some doc ∧
    doc.goal.evidenceVersion + before.goal.appliedEvidenceOps.dedup.length =
      before.goal.evidenceVersion + doc.goal.appliedEvidenceOps.dedup.length

/-- The operations of a goal are those it had and those that its jobs have contributed, and each
job has contributed at most one. -/
structure Contributes (start db : Database) : Prop where
  operations : ∀ goalId, db.operations goalId = start.operations goalId ++
    (db.counted.filter (·.goalId = goalId)).map Counted.operationId
  jobs : (db.counted.map Counted.jobId).Nodup

structure CountedOnce (jobs : Jobs) (start db : Database) : Prop where
  version : VersionCounts start db
  contributes : Contributes start db
  rows : (db.evidence.map EvidenceRow.identity).Nodup
  ready : ∀ jobId goalId jobType job, jobs jobId = some (goalId, jobType) →
    jobType = .evidence ∨ jobType = .review → db.jobs jobId = some job → job.status = .ready →
    operationId jobType goalId jobId ∈ db.operations goalId

end AiBuddy.Goals.Evidence
