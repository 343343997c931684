import AiBuddy.Misc.Text
import Mathlib.Data.List.Basic

/-!
# Rewriting the steps of a plan (`services/goals/step_actions.py`, `services/goals/plan.py`)

`_preserve_progress`, which `build_plan` calls on a new plan, and `accept_model_days`, which puts
the days of the model in the place of the plan's own right after it. A key that a day or a task
lacks counts as the empty text, as it does for the code.
-/

namespace AiBuddy.Goals.StepActions

/-- `DayTask`, `schemas.py:92`. -/
structure Task where
  id : String := ""
  text : String := ""
  done : Bool := false
  why : String := ""
  definitionOfDone : String := ""
  note : String := ""
  deriving DecidableEq

/-- A day of a plan: `PlanDay`, `schemas.py:101`, with the date of its completion. -/
@[ext]
structure Day where
  id : String := ""
  dayIndex : Int := 0
  scheduledDate : String := ""
  title : String := ""
  focus : String := ""
  category : String := ""
  minutes : Option Int := none
  tasks : List Task := []
  definitionOfDone : String := ""
  status : String := ""
  notes : String := ""
  completedOn : String := ""
  deriving DecidableEq

/-- The parts of a plan that `_preserve_progress` reads. -/
structure Plan where
  days : List Day
  appliedRecommendationIds : List String := []
  weeklyReflection : String := ""
  startedOn : String := ""
  deriving DecidableEq

def orText (first second : String) : String := if first ≠ "" then first else second

def orInt (first second : Option Int) : Option Int :=
  match first with
  | some value => if value ≠ 0 then some value else second
  | none => second

def doneIds (days : List Day) : List String :=
  ((days.flatMap Day.tasks).filter fun task => task.done ∧ task.id ≠ "").map Task.id

/-- `notes.get(id)`; a later note of the same id counts. -/
def notes? (days : List Day) (id : String) : Option String :=
  (((days.flatMap Day.tasks).filter fun task => task.id ≠ "" ∧ task.note ≠ "").reverse.find?
    (·.id = id)).map Task.note

/-- `by_id.get(...) or by_index.get(...)`. -/
def previousDay? (days : List Day) (day : Day) : Option Day :=
  (days.reverse.find? fun previous => previous.id ≠ "" ∧ previous.id = day.id).or
    (days.reverse.find? fun previous => previous.dayIndex ≠ 0 ∧ previous.dayIndex = day.dayIndex)

/-- `plan.py:1372`–`1377`. -/
def restoreDay (previous day : Day) : Day :=
  let day := { day with
    status := orText day.status previous.status
    scheduledDate := orText day.scheduledDate previous.scheduledDate
    notes := orText day.notes previous.notes
    completedOn := orText day.completedOn previous.completedOn
    category := orText day.category previous.category
    minutes := orInt day.minutes (previous.minutes.or day.minutes) }
  if previous.status ∈ ["done", "skipped", "reopened"] then { day with status := previous.status }
  else day

/-- `plan.py:1378`–`1383`. -/
def restoreTask (days : List Day) (task : Task) : Task :=
  let task := if task.id ∈ doneIds days then { task with done := true } else task
  match notes? days task.id with
  | some note => { task with note := note }
  | none => task

def preserveProgress (previous : Option Plan) (plan : Plan) : Plan :=
  match previous with
  | none => plan
  | some previous =>
    { days := plan.days.map fun day =>
        let day :=
          match previousDay? previous.days day with
          | some earlier => restoreDay earlier day
          | none => day
        { day with tasks := day.tasks.map (restoreTask previous.days) }
      appliedRecommendationIds :=
        if plan.appliedRecommendationIds.isEmpty then previous.appliedRecommendationIds
        else plan.appliedRecommendationIds
      weeklyReflection := orText plan.weeklyReflection previous.weeklyReflection
      startedOn := orText plan.startedOn previous.startedOn }

structure TaskReply where
  text : String
  why : String := ""
  definitionOfDone : String := ""
  deriving DecidableEq

structure DayReply where
  title : String
  focus : String := ""
  definitionOfDone : String := ""
  minutes : Option Int := none
  tasks : List TaskReply
  deriving DecidableEq

def doneDay (day : Day) : Bool :=
  Text.strip day.completedOn ≠ "" || Text.lower (Text.strip day.status) = "skipped"

def stripDots (text : String) : String :=
  .ofList (text.toList.reverse.dropWhile (· = '.')).reverse

def focusFrom (tasks : List Task) : String :=
  let texts :=
    (tasks.filter fun task => Text.strip task.text ≠ "").map fun task =>
      stripDots (Text.strip task.text)
  match texts with
  | first :: second :: _ =>
    let second := Text.lower (Text.take 1 second) ++ .ofList (second.toList.drop 1)
    Text.take 500 (first ++ ". Then " ++ second ++ ".")
  | [only] => Text.take 500 only
  | [] => ""

/-- A task of the reply as it is taken over, `step_actions.py:541`–`547`. -/
def taskOf (task : TaskReply) : Task where
  text := Text.take 240 (Text.strip task.text)
  why := Text.take 240 (Text.strip task.why)
  definitionOfDone := Text.take 240 (Text.strip task.definitionOfDone)
  done := false
  note := ""

/-- One task of a day of the reply, `step_actions.py:535`–`549`. -/
def normalizeTask (task : TaskReply) : Option Task :=
  if (Text.fields (Text.strip task.text)).length < 3 then none else some (taskOf task)

/-- A day of `normalized`. -/
structure Item where
  title : String
  focus : String
  definitionOfDone : String
  minutes : Option Int
  tasks : List Task

/-- One day of the reply, `step_actions.py:528`–`554`; only the first five tasks are looked at. -/
def normalizeDay (data : DayReply) : Option Item :=
  let title := Text.strip data.title
  if title = "" then none
  else
    match (data.tasks.take 5).mapM normalizeTask with
    | none => none
    | some tasks =>
      if tasks.length < 2 then none
      else
        some
          { title := Text.take 160 title
            focus := Text.strip data.focus
            definitionOfDone := Text.strip data.definitionOfDone
            minutes := data.minutes
            tasks := tasks }

def dayId (index : Nat) (previous : Day) : String :=
  orText (Text.strip previous.id) ("day-" ++ (index + 1).repr)

def taskId (day : String) (index : Nat) : String := day ++ "-t" ++ index.repr

/-- The tasks of a day with their new ids, `step_actions.py:563`–`565`. -/
def numberedTasks (day : String) (tasks : List Task) : List Task :=
  (tasks.zipIdx 1).map fun (task, index) => { task with id := taskId day index }

def minutesOf (previous : Day) (minutes : Option Int) : Option Int :=
  let standing := orInt previous.minutes (some 45)
  match minutes with
  | some minutes => if 10 ≤ minutes ∧ minutes ≤ 240 then some minutes else standing
  | none => standing

/-- The day that takes the place of an open day, `step_actions.py:562`–`580`. -/
def rewriteDay (index : Nat) (previous : Day) (item : Item) : Day :=
  let id := dayId index previous
  let tasks := numberedTasks id item.tasks
  let focus := orText item.focus (focusFrom tasks)
  let done := orText item.definitionOfDone
    (Text.strip ((tasks.getLast?.map Task.definitionOfDone).getD ""))
  { previous with
    id := id
    dayIndex := if previous.dayIndex ≠ 0 then previous.dayIndex else index + 1
    title := item.title
    focus := Text.take 500 focus
    definitionOfDone := Text.take 320 done
    tasks := tasks
    minutes := minutesOf previous item.minutes
    status := orText previous.status "open" }

/-- The body of the second loop of `accept_model_days`. -/
def mergeDay (original : List Day) (index : Nat) (item : Item) : Day :=
  let previous := original[index]?.getD {}
  if doneDay previous then previous else rewriteDay index previous item

def acceptModelDays (plan : Plan) (incoming : List DayReply) : Option Plan :=
  if incoming.isEmpty || plan.days.isEmpty then none
  else if incoming.length > 16 then none
  else
    match incoming.mapM normalizeDay with
    | none => none
    | some normalized => some { plan with days := normalized.mapIdx (mergeDay plan.days) }

end AiBuddy.Goals.StepActions
