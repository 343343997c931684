import AiBuddy.Misc.Program
import AiBuddy.Misc.Words

/-!
# Coach reviews of a goal (`services/goals/reviews.py`)

`build_review` with its fenced writes (`services/queue/mongo_fence.py`). The goal is the document
that the job has loaded before, and the user goes on writing the approved plan all the while. The
progress of the goal, its review and its snapshots are written but not modelled.
-/

namespace AiBuddy.Goals.CoachReview

open Program

/-- `PlanStrategy`, `schemas.py:118`. -/
structure Strategy where
  id : String := ""
  title : String
  body : String
  measurableGoal : String := ""
  why : String := ""
  proofPoints : List String := []
  effort : String := ""
  tags : List String := []
  deriving DecidableEq

/-- `PriorityRecommendation`, `schemas.py:129`. -/
structure Recommendation where
  id : String := ""
  title : String
  reason : String
  priority : String := "HIGH"
  howSteps : List String := []
  measurableGoal : String := ""
  milestoneTitle : String := ""
  suggestedDurationMinutes : Option Int := none
  relatedStrategyId : String := ""
  deriving DecidableEq

inductive PlanValue where
  | text (value : String)
  | int (value : Int)
  | strategies (items : List Strategy)
  | recommendations (items : List Recommendation)
  | json (text : String) (truthy : Bool)
  deriving DecidableEq

def PlanValue.truthy : PlanValue → Bool
  | .text value => value ≠ ""
  | .int value => value ≠ 0
  | .strategies items => !items.isEmpty
  | .recommendations items => !items.isEmpty
  | .json _ truthy => truthy

abbrev Plan := String → Option PlanValue

def Plan.set (plan : Plan) (field : String) (value : PlanValue) : Plan :=
  fun other => if other = field then some value else plan other

def Plan.version? (plan : Plan) : Option Int :=
  match plan "version" with
  | some (.int version) => some version
  | _ => none

/-- What `_model_review` or `fallback_coach` has drafted. -/
structure Draft where
  focus : String
  recommendation : String
  proposeRevision : Bool
  revisionNote : String
  strategies : List Strategy
  priorityRecommendations : List Recommendation
  deriving DecidableEq

/-- `_slug(prefix, index)`, `plan.py:25`, with the hexadecimal digits of `uuid4()`. -/
def slug (hex : Nat → String) (start : String) (index : Nat) : String :=
  start ++ "-" ++ (index : Int).repr ++ "-" ++ hex index

/-- `[_text(item) for item in items if _text(item)][:6]`. -/
def texts (items : List String) : List String :=
  ((items.map Text.strip).filter (· ≠ "")).take 6

/-- The body of the loop of `_normalize_strategies`, `plan.py:155`. -/
def normalizeStrategy (hex : Nat → String) (index : Nat) (data : Strategy) : Option Strategy :=
  let title := Text.strip data.title
  let body := Text.strip data.body
  if title = "" ∨ body = "" then none
  else
    let id := Text.strip data.id
    some
      { id := if id ≠ "" then id else slug hex "strategy" index
        title := Text.take 160 title
        body := Text.take 2200 body
        measurableGoal := Text.take 320 (Text.strip data.measurableGoal)
        why := Text.take 600 (Text.strip data.why)
        proofPoints := texts data.proofPoints
        effort := Text.take 240 (Text.strip data.effort)
        tags := texts data.tags }

/-- `plan.py:153`. -/
def normalizeStrategies (hex : Nat → String) (raw : List Strategy) : List Strategy :=
  ((raw.zipIdx 1).filterMap fun (data, index) => normalizeStrategy hex index data).take 8

/-- The body of the loop of `_normalize_priority_recommendations`, `plan.py:182`. -/
def normalizeRecommendation (hex : Nat → String) (index : Nat) (data : Recommendation) :
    Option Recommendation :=
  let title := Text.strip data.title
  let reason := Text.strip data.reason
  if title = "" ∨ reason = "" then none
  else
    let id := Text.strip data.id
    let priority := String.ofList ((Text.strip data.priority).toList.map Char.toUpper)
    some
      { id := if id ≠ "" then id else slug hex "rec" index
        title := Text.take 180 title
        reason := Text.take 1200 reason
        priority := if priority ∈ ["FIRST", "HIGH", "MEDIUM", "LOW"] then priority else "HIGH"
        howSteps := texts data.howSteps
        measurableGoal := Text.take 320 (Text.strip data.measurableGoal)
        milestoneTitle := Text.take 180 (Text.strip data.milestoneTitle)
        suggestedDurationMinutes := data.suggestedDurationMinutes
        relatedStrategyId := Text.take 80 (Text.strip data.relatedStrategyId) }

/-- `_normalize_priority_recommendations(raw)`, `plan.py:180`. -/
def normalizeRecommendations (hex : Nat → String) (raw : List Recommendation) :
    List Recommendation :=
  ((raw.zipIdx 1).filterMap fun (data, index) => normalizeRecommendation hex index data).take 10

def applyCoachUpdates (hex : Nat → String) (plan : Plan) (drafted : Draft) : Plan :=
  let strategies := normalizeStrategies hex drafted.strategies
  let recommendations := normalizeRecommendations hex drafted.priorityRecommendations
  let recommendation := Text.strip drafted.recommendation
  let focus := Text.strip drafted.focus
  let plan := if strategies ≠ [] then plan.set "strategies" (.strategies strategies) else plan
  let plan :=
    if recommendations ≠ [] then
      plan.set "priorityRecommendations" (.recommendations recommendations)
    else plan
  let plan :=
    if recommendation ≠ "" then
      plan.set "recommendation" (.text (Text.take 1200 recommendation))
    else plan
  if focus ≠ "" then plan.set "coachNote" (.text (Text.take 320 focus)) else plan

/-- `{**approved, "version": version, "summary": note}`, `reviews.py:383`. -/
def revisedPlan (approved : Plan) (version : Int) (note : String) : Plan :=
  (approved.set "version" (.int version)).set "summary" (.text note)

/-- A document of `goals`. -/
structure GoalDoc where
  ownerId : String
  approvedPlan : Option Plan
  activePlanVersion : Option Int
  processingFence : Option Int := none

/-- `int(goal.get("activePlanVersion") or 1)`. -/
def GoalDoc.activeVersion (goal : GoalDoc) : Int :=
  match goal.activePlanVersion with
  | none => 1
  | some version => if version ≠ 0 then version else 1

/-- A document of `goal_plan_versions`. -/
structure VersionRow where
  version : Int
  status : Option String
  ownerId : String
  plan : Plan
  processingFence : Option Int := none

structure State where
  goal : GoalDoc
  versions : List VersionRow
  /-- The plan that was written last by others than the review. -/
  latest : Plan
  /-- The plan that the review has written over, where no one has written since. -/
  coachedOver : Option Plan := none
  coachedRow : Bool := false

inductive Failure where
  | staleOwnership
  | mongo
  deriving DecidableEq

inductive Command : Type → Type
  | leaseToken : Command (Option Int)
  /-- The fenced update of `progress`; whether it has matched. -/
  | patchProgress (token : Option Int) : Command Bool
  | patchPlan (token : Option Int) (plan : Plan) : Command Bool
  /-- `processingFence` of the goal, as `_document_fence` reads it. -/
  | goalFence : Command Int
  | updateVersion (token : Option Int) (version : Int) (plan : Plan) : Command Bool
  /-- `processingFence` of the row of a version, and of one with this status. -/
  | versionFence (version : Int) (status : Option String) : Command Int
  /-- The fenced update of a proposed row, which only sets the fence. -/
  | touchProposed (token : Int) (version : Int) : Command Bool
  | propose (token : Option Int) (row : VersionRow) : Command Unit
  /-- The writes of the review and of the snapshots. -/
  | record : Command Unit

/-- `_fence_clause(token)`, with no clause outside of a lease. -/
def fenceAllows (token stored : Option Int) : Bool :=
  match token, stored with
  | some token, some stored => stored ≤ token
  | _, _ => true

/-- `_with_fence`: the fence that a write leaves. -/
def fenceAfter (token stored : Option Int) : Option Int :=
  match token with
  | some token => some token
  | none => stored

/-- `update_one` on the first element that passes. -/
def updateFirst {α : Type} (find : α → Bool) (change : α → α) : List α → Option (List α)
  | [] => none
  | item :: rest =>
    if find item then some (change item :: rest)
    else (updateFirst find change rest).map (item :: ·)

def VersionRow.isAt (version : Int) (status : Option String) (row : VersionRow) : Bool :=
  row.version = version && (status.isNone || row.status = status)

namespace State

/-- `update_one` on the goal. -/
def patch (token : Option Int) (change : GoalDoc → GoalDoc) (s : State) : Bool × State :=
  if fenceAllows token s.goal.processingFence then
    let goal := change s.goal
    (true, { s with goal := { goal with
      processingFence := fenceAfter token s.goal.processingFence } })
  else (false, s)

/-- `update_one` on `goal_plan_versions`. `unique` is the index of `ensure_idempotency_indexes`. -/
def run {α : Type} (unique : Bool) (command : Command α) (s : State) : Except Failure α × State :=
  match command with
  | .leaseToken => (.ok none, s)
  | .patchProgress token =>
    let (matched, s) := s.patch token id
    (.ok matched, s)
  | .patchPlan token plan =>
    let (matched, s') := s.patch token fun goal => { goal with approvedPlan := some plan }
    (.ok matched, if matched then { s' with coachedOver := some s.latest } else s')
  | .goalFence => (.ok (s.goal.processingFence.getD 0), s)
  | .updateVersion token version plan =>
    match updateFirst
      (fun row => row.isAt version none && fenceAllows token row.processingFence)
      (fun row => { row with plan, processingFence := fenceAfter token row.processingFence })
      s.versions with
    | some versions => (.ok true, { s with versions, coachedRow := true })
    | none => (.ok false, s)
  | .versionFence version status =>
    (.ok (((s.versions.find? (·.isAt version status)).bind (·.processingFence)).getD 0), s)
  | .touchProposed token version =>
    match updateFirst
      (fun row => row.isAt version (some "proposed") && fenceAllows
        (some token) row.processingFence)
      (fun row => { row with processingFence := some token }) s.versions with
    | some versions => (.ok true, { s with versions })
    | none => (.ok false, s)
  | .propose token row =>
    match updateFirst (fun stored => stored.isAt row.version (some "proposed"))
      (fun stored => { stored with processingFence := fenceAfter token stored.processingFence })
      s.versions with
    | some versions => (.ok (), { s with versions })
    | none =>
      if unique ∧ s.versions.any (·.version = row.version) then (.error .mongo, s)
      else (.ok (), { s with versions := s.versions ++ [{ row with processingFence := token }] })
  | .record => (.ok (), s)

end State

abbrev Reviewing := Raising (Remote Failure Command) Failure

def ask {α : Type} (command : Command α) : Reviewing α :=
  Program.send (fun failure => failure) command

def rejectIfNewer (fence : Command Int) (token : Int) : Reviewing Unit := do
  let stored ← ask fence
  if token < stored then throw .staleOwnership else return ()

/-- `fenced_update_one` without an upsert. -/
def fencedUpdateOne (update : Option Int → Command Bool) (fence : Command Int) :
    Reviewing Unit := do
  let token ← ask .leaseToken
  let matched ← ask (update token)
  match token with
  | none => return ()
  | some token => if matched then return () else rejectIfNewer fence token

/-- `fenced_update_one` with the upsert of a proposed row. -/
def fencedPropose (row : VersionRow) : Reviewing Unit := do
  let token ← ask .leaseToken
  match token with
  | none => ask (.propose none row)
  | some token =>
    let matched ← ask (.touchProposed token row.version)
    if matched then return ()
    else
      rejectIfNewer (.versionFence row.version (some "proposed")) token
      ask (.propose (some token) row)

/-- `except StaleOwnershipError: raise; except Exception: print(...)`. -/
def swallowing (body : Reviewing Unit) : Reviewing Unit := do
  match ← attempt body with
  | .error .staleOwnership => throw .staleOwnership
  | _ => return ()

/-- The update of the approved plan, `reviews.py:333`. -/
def coachPlan (hex : Nat → String) (goal : GoalDoc) (drafted : Draft) : Reviewing Unit :=
  match goal.approvedPlan with
  | none => return ()
  | some approved =>
    if drafted.strategies = [] ∧ drafted.priorityRecommendations = [] then return ()
    else do
      let nextPlan := applyCoachUpdates hex approved drafted
      fencedUpdateOne (fun token => .patchPlan token nextPlan) .goalFence
      swallowing <| fencedUpdateOne
        (fun token => .updateVersion token goal.activeVersion nextPlan)
        (.versionFence goal.activeVersion none)

/-- The proposal of a revision, `reviews.py:371`. -/
def proposeRevision (goal : GoalDoc) (weekly : Bool) (drafted : Draft) : Reviewing Unit :=
  if weekly ∧ drafted.proposeRevision ∧ drafted.revisionNote ≠ "" then
    match goal.approvedPlan with
    | none => return ()
    | some approved =>
      if (approved "milestones").any PlanValue.truthy then
        swallowing <| fencedPropose
          { version := goal.activeVersion + 1
            status := some "proposed"
            ownerId := goal.ownerId
            plan := revisedPlan approved (goal.activeVersion + 1) drafted.revisionNote }
      else return ()
  else return ()

/-- The daily snapshot of a weekly review, `reviews.py:368`. -/
def recordDaily (weekly : Bool) : Reviewing Unit := if weekly then ask .record else return ()

def buildReview (hex : Nat → String) (goal : GoalDoc) (weekly : Bool) (drafted : Draft) :
    Reviewing Unit := do
  fencedUpdateOne (fun token => .patchProgress token) .goalFence
  coachPlan hex goal drafted
  ask .record
  ask .record
  recordDaily weekly
  proposeRevision goal weekly drafted

/-- Every command may fail before or after it has been carried out; the lease may have been lost,
and answers with a token otherwise. -/
def goes (unique : Bool) : Semantics (Remote Failure Command) State :=
  Remote.semantics fun command s reply s' =>
    match command, reply with
    | .leaseToken, _ => s' = s
    | .record, _ => s' = s
    | command, reply => Answers .mongo (State.run unique command) s reply s'

/-- The user writes the approved plan, or approves another one, or another job leaves its fence. -/
inductive Elsewhere (s : State) : State → Prop where
  | write (plan : Plan) (version : Option Int) :
      Elsewhere s { s with
        goal := { s.goal with approvedPlan := some plan, activePlanVersion := version }
        latest := plan
        coachedOver := none }
  | fence (token : Option Int) :
      Elsewhere s { s with goal := { s.goal with processingFence := token } }

abbrev ReviewRun (unique : Bool) :=
  Reach (α := Except Failure Unit) (goes unique) Elsewhere

def coachFields : List String :=
  ["strategies", "priorityRecommendations", "recommendation", "coachNote"]

def SameProgress (plan other : Plan) : Prop :=
  ∀ field, field ∉ coachFields → plan field = other field

def VersionRow.Own (row : VersionRow) : Prop :=
  ∀ version, row.plan.version? = some version → version = row.version

/-- The stored plan is the one that the user has written last, but for what belongs to the coach,
and no row holds the plan of another version. -/
structure KeepsProgress (s : State) : Prop where
  progress : ∃ plan, s.goal.approvedPlan = some plan ∧ SameProgress plan s.latest
  rows : ∀ row ∈ s.versions, row.Own

structure Loaded (goal : GoalDoc) (approved : Plan) (s : State) : Prop where
  same : s.goal = goal
  plan : goal.approvedPlan = some approved
  latest : s.latest = approved
  coachedOver : s.coachedOver = none
  coachedRow : s.coachedRow = false
  rows : ∀ row ∈ s.versions, row.Own

end AiBuddy.Goals.CoachReview
