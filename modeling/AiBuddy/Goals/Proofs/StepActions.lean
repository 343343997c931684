import AiBuddy.Goals.StepActions

/-!
# What a rewrite of the steps keeps

When `accept_model_days` leaves the finished days of a plan as they are, and the done flags and the
notes of the tasks of the other days.
-/

namespace AiBuddy.Goals.StepActions

theorem getElem?_mapM {α β : Type} {f : α → Option β} {items : List α} {results : List β}
    (h : items.mapM f = some results) (index : Nat) :
    items[index]?.map f = results[index]?.map some := by
  induction items generalizing results index with
  | nil =>
    cases h
    rfl
  | cons item items ih =>
    rw [List.mapM_cons] at h
    obtain ⟨first, hfirst, h⟩ := Option.bind_eq_some_iff.mp h
    obtain ⟨rest, hrest, h⟩ := Option.bind_eq_some_iff.mp h
    cases h
    cases index with
    | zero => simpa using hfirst
    | succ index => simpa using ih hrest index

theorem mapM_normalizeTask {tasks : List TaskReply} {results : List Task}
    (h : tasks.mapM normalizeTask = some results) : results = tasks.map taskOf := by
  induction tasks generalizing results with
  | nil =>
    cases h
    rfl
  | cons task tasks ih =>
    rw [List.mapM_cons] at h
    obtain ⟨first, hfirst, h⟩ := Option.bind_eq_some_iff.mp h
    obtain ⟨rest, hrest, h⟩ := Option.bind_eq_some_iff.mp h
    cases h
    rw [normalizeTask] at hfirst
    split at hfirst
    · cases hfirst
    · cases hfirst
      rw [ih hrest, List.map_cons]

def itemOf (data : DayReply) : Item where
  title := Text.take 160 (Text.strip data.title)
  focus := Text.strip data.focus
  definitionOfDone := Text.strip data.definitionOfDone
  minutes := data.minutes
  tasks := (data.tasks.take 5).map taskOf

variable {data : DayReply}

variable {item : Item}

theorem normalizeDay_eq (h : normalizeDay data = some item) : item = itemOf data := by
  unfold normalizeDay at h
  dsimp only at h
  split at h
  · cases h
  · split at h
    · cases h
    · next tasks htasks =>
      split at h
      · cases h
      · rw [← Option.some.inj h, mapM_normalizeTask htasks, itemOf]

def previousAt (days : List Day) (index : Nat) : Day := days[index]?.getD {}

theorem acceptModelDays_days {plan result : Plan} {incoming : List DayReply}
    (h : acceptModelDays plan incoming = some result) :
    ∃ normalized, incoming.mapM normalizeDay = some normalized ∧
      result.days = normalized.mapIdx (mergeDay plan.days) := by
  simp only [acceptModelDays] at h
  by_cases hempty : incoming.isEmpty || plan.days.isEmpty
  · rw [if_pos hempty] at h
    exact absurd h (by simp)
  rw [if_neg hempty] at h
  by_cases hmany : incoming.length > 16
  · rw [if_pos hmany] at h
    exact absurd h (by simp)
  rw [if_neg hmany] at h
  cases hnormalized : incoming.mapM normalizeDay with
  | none =>
    rw [hnormalized] at h
    exact absurd h (by simp)
  | some normalized =>
    rw [hnormalized] at h
    simp only [Option.some.injEq] at h
    exact ⟨normalized, rfl, by rw [← h]⟩

theorem mem_result {plan result : Plan} {incoming : List DayReply}
    (h : acceptModelDays plan incoming = some result) {day : Day} :
    day ∈ result.days ↔ ∃ index data, incoming[index]? = some data ∧
      mergeDay plan.days index (itemOf data) = day := by
  obtain ⟨normalized, hnormalized, hdays⟩ := acceptModelDays_days h
  rw [hdays, List.mem_iff_getElem?]
  constructor
  · rintro ⟨index, hday⟩
    have hat := getElem?_mapM hnormalized index
    rw [List.getElem?_mapIdx] at hday
    obtain ⟨item, hitem, rfl⟩ := Option.map_eq_some_iff.mp hday
    rw [hitem, Option.map_some] at hat
    obtain ⟨data, hdata, hitem⟩ := Option.map_eq_some_iff.mp hat
    exact ⟨index, data, hdata, by rw [normalizeDay_eq hitem]⟩
  · rintro ⟨index, data, hdata, rfl⟩
    have hat := getElem?_mapM hnormalized index
    rw [hdata, Option.map_some] at hat
    obtain ⟨item, hitem, hsome⟩ := Option.map_eq_some_iff.mp hat.symm
    refine ⟨index, ?_⟩
    rw [List.getElem?_mapIdx, hitem, Option.map_some, normalizeDay_eq hsome.symm]

variable {index : Nat} {previous : Day}

theorem doneDay_rewriteDay (h : doneDay previous = false) :
    doneDay (rewriteDay index previous item) = false := by
  simp only [doneDay, Bool.or_eq_false_iff, decide_eq_false_iff_not] at h ⊢
  refine ⟨h.1, ?_⟩
  change ¬ Text.lower (Text.strip (orText previous.status "open")) = "skipped"
  rw [orText]
  split
  · exact h.2
  · decide

theorem doneDay_default : doneDay {} = false := by decide

variable {task : Task}

theorem mem_numberedTasks {day : String} {tasks : List Task} :
    task ∈ numberedTasks day tasks ↔
      ∃ k, ∃ old : Task, tasks[k]? = some old ∧ task = { old with id := taskId day (k + 1) } := by
  rw [numberedTasks, List.mem_map]
  constructor
  · rintro ⟨⟨old, index⟩, hold, rfl⟩
    obtain ⟨k, hk⟩ := List.mem_iff_getElem?.mp hold
    rw [List.getElem?_zipIdx] at hk
    obtain ⟨old', hold', heq⟩ := Option.map_eq_some_iff.mp hk
    cases heq
    exact ⟨k, old, hold', by rw [Nat.add_comm]⟩
  · rintro ⟨k, old, hold, rfl⟩
    refine ⟨(old, k + 1), List.mem_iff_getElem?.mpr ⟨k, ?_⟩, rfl⟩
    rw [List.getElem?_zipIdx, hold, Option.map_some, Nat.add_comm]

theorem mem_rewritten_tasks :
    task ∈ (rewriteDay index previous (itemOf data)).tasks ↔
      ∃ k reply, k < 5 ∧ data.tasks[k]? = some reply ∧
        task = { taskOf reply with id := taskId (dayId index previous) (k + 1) } := by
  change task ∈ numberedTasks _ ((data.tasks.take 5).map taskOf) ↔ _
  rw [mem_numberedTasks]
  constructor
  · rintro ⟨k, old, hold, rfl⟩
    rw [List.getElem?_map, List.getElem?_take] at hold
    split at hold
    · next hk =>
      obtain ⟨reply, hreply, rfl⟩ := Option.map_eq_some_iff.mp hold
      exact ⟨k, reply, hk, hreply, rfl⟩
    · nomatch hold
  · rintro ⟨k, reply, hk, hreply, rfl⟩
    refine ⟨k, taskOf reply, ?_, rfl⟩
    rw [List.getElem?_map, List.getElem?_take, if_pos hk, hreply, Option.map_some]

/-- `_done_day(day)`, `skill_plan.py:182`: a day that the user has completed or skipped. -/
def Finished (day : Day) : Prop :=
  Text.strip day.completedOn ≠ "" ∨ Text.lower (Text.strip day.status) ∈ ["done", "skipped"]

structure KeepsTask (task kept : Task) : Prop where
  done : task.done = true → kept.done = true
  note : task.note ≠ "" → kept.note = task.note

/-- The finished days of a plan are there unchanged, and so is the progress of the tasks of its
other days where a task of their id is there. -/
structure KeepsProgress (days result : List Day) : Prop where
  finished : ∀ day ∈ days, Finished day → day ∈ result
  tasks : ∀ day ∈ days, ¬ Finished day → ∀ task ∈ day.tasks, task.id ≠ "" →
    ∀ other ∈ result, ∀ kept ∈ other.tasks, kept.id = task.id → KeepsTask task kept

structure Repeats (index : Nat) (previous : Day) (data : DayReply) (day : Day) : Prop where
  id : day.id = dayId index previous
  dayIndex : day.dayIndex = if previous.dayIndex ≠ 0 then previous.dayIndex else index + 1
  title : day.title = Text.take 160 (Text.strip data.title)
  focus : day.focus = Text.take 500 (orText (Text.strip data.focus) (focusFrom day.tasks))
  definitionOfDone : day.definitionOfDone = Text.take 320 (orText (Text.strip data.definitionOfDone)
    (Text.strip ((day.tasks.getLast?.map Task.definitionOfDone).getD "")))
  tasks : day.tasks = numberedTasks day.id ((data.tasks.take 5).map taskOf)
  minutes : day.minutes = minutesOf previous data.minutes
  status : day.status = orText previous.status "open"
  scheduledDate : day.scheduledDate = previous.scheduledDate
  category : day.category = previous.category
  notes : day.notes = previous.notes
  completedOn : day.completedOn = previous.completedOn

/-- What spares the progress of a plan: the reply reaches every day with a date of completion and
every skipped day, says the days again that are only marked as done, and gives out no id of a task
with progress. -/
structure Spared (days : List Day) (incoming : List DayReply) : Prop where
  reached : ∀ day ∈ days, doneDay day = true →
    ∃ index < incoming.length, days[index]? = some day
  repeated : ∀ day ∈ days, Finished day → doneDay day = false →
    ∃ index data, incoming[index]? = some data ∧ doneDay (previousAt days index) = false ∧
      Repeats index (previousAt days index) data day
  fresh : ∀ day ∈ days, ¬ Finished day → ∀ task ∈ day.tasks, task.id ≠ "" →
    task.done = true ∨ task.note ≠ "" → ∀ index data, incoming[index]? = some data →
      doneDay (previousAt days index) = false → ∀ k < 5, k < data.tasks.length →
        taskId (dayId index (previousAt days index)) (k + 1) ≠ task.id
  agreeing : ∀ day ∈ days, ¬ Finished day → ∀ task ∈ day.tasks, task.id ≠ "" →
    ∀ index < incoming.length, ∀ other, days[index]? = some other → doneDay other = true →
      ∀ kept ∈ other.tasks, kept.id = task.id → KeepsTask task kept

theorem repeats_iff {day : Day} :
    Repeats index previous data day ↔ rewriteDay index previous (itemOf data) = day := by
  constructor
  · rintro ⟨hid, hindex, htitle, hfocus, hdone, htasks, hminutes, hstatus, hdate, hcategory, hnotes,
      hcompleted⟩
    cases day
    dsimp only at *
    subst hid htasks hindex htitle hfocus hdone hminutes hstatus hdate hcategory hnotes hcompleted
    rfl
  · rintro rfl
    simp only [rewriteDay, itemOf]
    constructor <;> rfl

theorem previousAt_of_doneDay {days : List Day} {day : Day}
    (h : doneDay (previousAt days index) = true) (heq : previousAt days index = day) :
    days[index]? = some day := by
  cases hday : days[index]? with
  | none =>
    rw [previousAt, hday, Option.getD_none, doneDay_default] at h
    nomatch h
  | some previous =>
    rw [previousAt, hday, Option.getD_some] at heq
    rw [heq]

theorem mergeDay_eq {days : List Day} {index : Nat} :
    mergeDay days index item =
      if doneDay (previousAt days index) then previousAt days index
      else rewriteDay index (previousAt days index) item := rfl

theorem finished_of_doneDay {day : Day} (h : doneDay day = true) : Finished day := by
  rcases Bool.or_eq_true_iff.mp h with hdate | hskipped
  · exact .inl (of_decide_eq_true hdate)
  · exact .inr (by simp [of_decide_eq_true hskipped])

variable {plan result : Plan} {incoming : List DayReply} {day : Day}

theorem mem_result_of_doneDay (h : acceptModelDays plan incoming = some result)
    (hdone : doneDay day = true) :
    day ∈ result.days ↔ ∃ index < incoming.length, plan.days[index]? = some day := by
  rw [mem_result h]
  constructor
  · rintro ⟨index, data, hdata, hday⟩
    rw [mergeDay_eq] at hday
    split at hday
    · next hprevious =>
      exact ⟨index, (List.getElem?_eq_some_iff.mp hdata).1, previousAt_of_doneDay hprevious hday⟩
    · next hprevious =>
      rw [← hday, doneDay_rewriteDay (by simpa using hprevious)] at hdone
      nomatch hdone
  · rintro ⟨index, hlt, hday⟩
    refine ⟨index, incoming[index], List.getElem?_eq_getElem hlt, ?_⟩
    rw [mergeDay_eq, previousAt, hday, Option.getD_some, if_pos hdone]

theorem mem_result_of_open (h : acceptModelDays plan incoming = some result)
    (hopen : doneDay day = false) :
    day ∈ result.days ↔ ∃ index data, incoming[index]? = some data ∧
      doneDay (previousAt plan.days index) = false ∧
        Repeats index (previousAt plan.days index) data day := by
  rw [mem_result h]
  refine exists_congr fun index => exists_congr fun data => and_congr_right fun _ => ?_
  rw [mergeDay_eq, repeats_iff]
  by_cases hprevious : doneDay (previousAt plan.days index) = true
  · rw [if_pos hprevious]
    constructor
    · intro heq
      rw [heq, hopen] at hprevious
      nomatch hprevious
    · rintro ⟨hfalse, -⟩
      rw [hprevious] at hfalse
      nomatch hfalse
  · rw [if_neg hprevious]
    simp [hprevious]

theorem keepsTask_new {kept : Task} (hdone : kept.done = false) (hnote : kept.note = "") :
    KeepsTask task kept ↔ ¬ (task.done = true ∨ task.note ≠ "") := by
  constructor
  · rintro ⟨hkeepsDone, hkeepsNote⟩ hprogress
    rcases hprogress with htask | htask
    · rw [hkeepsDone htask] at hdone
      nomatch hdone
    · exact htask ((hkeepsNote htask).symm.trans hnote)
  · intro hprogress
    exact ⟨fun htask => absurd (.inl htask) hprogress, fun htask => absurd (.inr htask) hprogress⟩

theorem keepsTask_iff (h : acceptModelDays plan incoming = some result) {task : Task} :
    (∀ other ∈ result.days, ∀ kept ∈ other.tasks, kept.id = task.id → KeepsTask task kept) ↔
      (task.done = true ∨ task.note ≠ "" → ∀ index data, incoming[index]? = some data →
        doneDay (previousAt plan.days index) = false → ∀ k < 5, k < data.tasks.length →
          taskId (dayId index (previousAt plan.days index)) (k + 1) ≠ task.id) ∧
      ∀ index < incoming.length, ∀ other, plan.days[index]? = some other →
        doneDay other = true → ∀ kept ∈ other.tasks, kept.id = task.id → KeepsTask task kept := by
  constructor
  · intro hkeeps
    refine ⟨fun hprogress index data hdata hopen k hk hlength hid => ?_,
      fun index hlt other hother hdone => ?_⟩
    · have hmem : rewriteDay index (previousAt plan.days index) (itemOf data) ∈ result.days := by
        refine (mem_result h).mpr ⟨index, data, hdata, ?_⟩
        rw [mergeDay_eq, hopen, if_neg (by simp)]
      have hkept := hkeeps _ hmem _ (mem_rewritten_tasks.mpr
        ⟨k, data.tasks[k], hk, List.getElem?_eq_getElem hlength, rfl⟩) hid
      exact (keepsTask_new rfl rfl).mp hkept hprogress
    · exact hkeeps other ((mem_result_of_doneDay h hdone).mpr ⟨index, hlt, hother⟩)
  · rintro ⟨hfresh, hagree⟩ other hother kept hkept hid
    obtain ⟨index, data, hdata, rfl⟩ := (mem_result h).mp hother
    rw [mergeDay_eq] at hkept
    split at hkept
    · next hdone =>
      exact hagree index (List.getElem?_eq_some_iff.mp hdata).1 _
        (previousAt_of_doneDay hdone rfl) hdone kept hkept hid
    · next hopen =>
      obtain ⟨k, reply, hk, hreply, rfl⟩ := mem_rewritten_tasks.mp hkept
      refine (keepsTask_new rfl rfl).mpr fun hprogress => ?_
      exact hfresh hprogress index data hdata (by simpa using hopen) k hk
        (List.getElem?_eq_some_iff.mp hreply).1 hid

theorem keepsProgress_iff (h : acceptModelDays plan incoming = some result) :
    KeepsProgress plan.days result.days ↔ Spared plan.days incoming := by
  constructor
  · intro hkeeps
    have htasks := fun day hday hopen task htask hid =>
      (keepsTask_iff h).mp (hkeeps.tasks day hday hopen task htask hid)
    refine ⟨fun day hday hdone => ?_, fun day hday hfinished hopen => ?_,
      fun day hday hopen task htask hid => (htasks day hday hopen task htask hid).1,
      fun day hday hopen task htask hid => (htasks day hday hopen task htask hid).2⟩
    · exact (mem_result_of_doneDay h hdone).mp
        (hkeeps.finished day hday (finished_of_doneDay hdone))
    · exact (mem_result_of_open h hopen).mp (hkeeps.finished day hday hfinished)
  · intro hspared
    refine ⟨fun day hday hfinished => ?_, fun day hday hopen task htask hid => ?_⟩
    · cases hdone : doneDay day with
      | true => exact (mem_result_of_doneDay h hdone).mpr (hspared.reached day hday hdone)
      | false => exact (mem_result_of_open h hdone).mpr (hspared.repeated day hday hfinished hdone)
    · exact (keepsTask_iff h).mpr ⟨hspared.fresh day hday hopen task htask hid,
        hspared.agreeing day hday hopen task htask hid⟩

/-- Rewriting the steps of a plan with restored progress keeps that progress exactly when the reply
spares it. -/
theorem acceptModelDays_keepsProgress (previous : Option Plan) (plan result : Plan)
    (incoming : List DayReply)
    (accepted : acceptModelDays (preserveProgress previous plan) incoming = some result) :
    KeepsProgress (preserveProgress previous plan).days result.days ↔
      Spared (preserveProgress previous plan).days incoming :=
  keepsProgress_iff accepted

def samplePrevious : Plan where
  days := [
    { id := "day-1", dayIndex := 1, title := "Scope", status := "open"
      tasks := [{ id := "day-1-t1", text := "Write the scope statement.", done := true
                  note := "sent on Monday" }] },
    { id := "day-2", dayIndex := 2, title := "Sign-off", status := "done"
      completedOn := "2026-09-02"
      tasks := [{ id := "day-2-t1", text := "Ask the client to sign.", done := true }] }]

def samplePlan : Plan where
  days := [
    { id := "day-1", dayIndex := 1, title := "Scope", status := "open"
      tasks := [{ id := "day-1-t1", text := "Scope" }] },
    { id := "day-2", dayIndex := 2, title := "Sign-off", status := "open"
      tasks := [{ id := "day-2-t1", text := "Sign-off" }] }]

def sampleReply : List DayReply := [
  { title := "Scope", focus := "Agree on the scope."
    tasks := [{ text := "Write the scope statement." }, { text := "Ask the client to sign it." }] }]

/-- The plan that `accept_model_days` makes of it. -/
def sampleResult : Plan where
  days := [
    { id := "day-1", dayIndex := 1, title := "Scope", focus := "Agree on the scope."
      minutes := some 45, status := "open"
      tasks := [{ id := "day-1-t1", text := "Write the scope statement." },
                { id := "day-1-t2", text := "Ask the client to sign it." }] }]

def sampleCompleted : Day where
  id := "day-2"
  dayIndex := 2
  title := "Sign-off"
  status := "done"
  completedOn := "2026-09-02"
  tasks := [{ id := "day-2-t1", text := "Sign-off", done := true }]

theorem sample_accepted :
    acceptModelDays (preserveProgress (some samplePrevious) samplePlan) sampleReply =
      some sampleResult := by
  decide +kernel

theorem acceptModelDays_keepsProgress_sample :
    KeepsProgress (preserveProgress (some samplePrevious) samplePlan).days sampleResult.days ↔
      Spared (preserveProgress (some samplePrevious) samplePlan).days sampleReply :=
  acceptModelDays_keepsProgress (some samplePrevious) samplePlan sampleResult sampleReply
    sample_accepted

/-- The completed day is gone, for the reply has only one day. -/
theorem rewrite_wipes_progress :
    ¬ ∀ (previous : Option Plan) (plan result : Plan) (incoming : List DayReply),
      acceptModelDays (preserveProgress previous plan) incoming = some result →
        KeepsProgress (preserveProgress previous plan).days result.days := by
  intro hkeeps
  have hwiped := hkeeps (some samplePrevious) samplePlan sampleResult sampleReply sample_accepted
  have hday : sampleCompleted ∈ (preserveProgress (some samplePrevious) samplePlan).days := by
    decide +kernel
  have hfinished : Finished sampleCompleted :=
    finished_of_doneDay (by decide +kernel)
  exact absurd (hwiped.finished sampleCompleted hday hfinished) (by decide +kernel)

end AiBuddy.Goals.StepActions
