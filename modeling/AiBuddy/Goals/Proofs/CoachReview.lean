import AiBuddy.Goals.CoachReview

/-!
# When a review keeps the progress of its goal

What a review may write is fixed when it begins: the plan that was loaded, with the coach's fields.
Whatever the user has written in the meantime is lost under it.
-/

namespace AiBuddy.Goals.CoachReview

open Program

variable {hex : Nat → String} {goal : GoalDoc} {approved : Plan} {drafted : Draft} {s s' : State}

theorem SameProgress.refl (plan : Plan) : SameProgress plan plan := fun _ _ => rfl

variable {plan : Plan}

theorem SameProgress.symm {other : Plan} (h : SameProgress plan other) : SameProgress other plan :=
    fun field hfield => (h field hfield).symm

theorem SameProgress.trans {p q r : Plan} (h : SameProgress p q) (h' : SameProgress q r) :
    SameProgress p r := fun field hfield => (h field hfield).trans (h' field hfield)

theorem sameProgress_set {field : String} (hfield : field ∈ coachFields) {value : PlanValue} :
    SameProgress (plan.set field value) plan := by
  intro other hother
  have hne : other ≠ field := fun heq => hother (heq ▸ hfield)
  exact if_neg hne

theorem sameProgress_ite {condition : Prop} [Decidable condition] {field : String}
    (hfield : field ∈ coachFields) {value : PlanValue} :
    SameProgress (if condition then plan.set field value else plan) plan := by
  split
  · exact sameProgress_set hfield
  · exact .refl plan

theorem sameProgress_applyCoachUpdates (hex : Nat → String) (plan : Plan) (drafted : Draft) :
    SameProgress (applyCoachUpdates hex plan drafted) plan := by
  unfold applyCoachUpdates
  refine (sameProgress_ite (by decide)).trans ?_
  refine (sameProgress_ite (by decide)).trans ?_
  exact (sameProgress_ite (by decide)).trans (sameProgress_ite (by decide))

theorem version?_of_sameProgress {other : Plan} (h : SameProgress plan other) :
    plan.version? = other.version? := by
  unfold Plan.version?
  rw [h "version" (by decide)]

theorem version?_revisedPlan {version : Int} {note : String} :
    (revisedPlan plan version note).version? = some version := rfl

section Update

variable {α : Type} {find : α → Bool} {change : α → α} {items items' : List α}

theorem mem_of_updateFirst (h : updateFirst find change items = some items') {item : α}
    (hmem : item ∈ items') : item ∈ items ∨ ∃ old ∈ items, find old = true ∧ item = change old := by
  induction items generalizing items' with
  | nil => cases h
  | cons first rest ih =>
    unfold updateFirst at h
    split at h
    · next hfind =>
      cases h
      rcases List.mem_cons.mp hmem with rfl | hrest
      · exact .inr ⟨first, List.mem_cons_self, hfind, rfl⟩
      · exact .inl (List.mem_cons_of_mem _ hrest)
    · obtain ⟨rest', hrest', rfl⟩ := Option.map_eq_some_iff.mp h
      rcases List.mem_cons.mp hmem with rfl | hmem'
      · exact .inl List.mem_cons_self
      · rcases ih hrest' hmem' with hold | ⟨old, hold, hchanged⟩
        · exact .inl (List.mem_cons_of_mem _ hold)
        · exact .inr ⟨old, List.mem_cons_of_mem _ hold, hchanged⟩

theorem updateFirst_of_mem (h : updateFirst find change items = some items') {item : α}
    (hmem : item ∈ items) : item ∈ items' ∨ change item ∈ items' := by
  induction items generalizing items' with
  | nil => cases hmem
  | cons first rest ih =>
    unfold updateFirst at h
    split at h
    · cases h
      rcases List.mem_cons.mp hmem with rfl | hrest
      · exact .inr List.mem_cons_self
      · exact .inl (List.mem_cons_of_mem _ hrest)
    · obtain ⟨rest', hrest', rfl⟩ := Option.map_eq_some_iff.mp h
      rcases List.mem_cons.mp hmem with rfl | hrest
      · exact .inl List.mem_cons_self
      · exact (ih hrest' hrest).imp (List.mem_cons_of_mem _) (List.mem_cons_of_mem _)

theorem exists_of_updateFirst (h : updateFirst find change items = some items') :
    ∃ old ∈ items, find old = true ∧ change old ∈ items' := by
  induction items generalizing items' with
  | nil => cases h
  | cons first rest ih =>
    unfold updateFirst at h
    split at h
    · next hfind =>
      cases h
      exact ⟨first, List.mem_cons_self, hfind, List.mem_cons_self⟩
    · obtain ⟨rest', hrest', rfl⟩ := Option.map_eq_some_iff.mp h
      obtain ⟨old, hold, hfind, hnew⟩ := ih hrest'
      exact ⟨old, List.mem_cons_of_mem _ hold, hfind, List.mem_cons_of_mem _ hnew⟩

end Update

def Writes (goal : GoalDoc) (next : Plan) {β : Type} (command : Remote Failure Command β) : Prop :=
  match command with
  | .send (.patchPlan _ plan) => plan = next
  | .send (.updateVersion _ version plan) => version = goal.activeVersion ∧ plan = next
  | .send (.propose _ row) => row.Own
  | _ => True

variable {next : Plan}

theorem writes_rejectIfNewer {fence : Command Int} {token : Int}
    (hfence : Writes goal next (.send fence : Remote Failure Command _)) :
    (rejectIfNewer fence token).run.Issues (Writes goal next) := by
  refine Issues.raising_bind (Issues.send hfence) fun stored => ?_
  split <;> trivial

theorem writes_fencedUpdateOne {update : Option Int → Command Bool} {fence : Command Int}
    (hupdate : ∀ token, Writes goal next (.send (update token) : Remote Failure Command _))
    (hfence : Writes goal next (.send fence : Remote Failure Command _)) :
    (fencedUpdateOne update fence).run.Issues (Writes goal next) := by
  refine Issues.raising_bind (Issues.send trivial) fun token => ?_
  refine Issues.raising_bind (Issues.send (hupdate token)) fun matched => ?_
  split
  · trivial
  · split
    · trivial
    · exact writes_rejectIfNewer hfence

theorem writes_fencedPropose {row : VersionRow} (hrow : row.Own) :
    (fencedPropose row).run.Issues (Writes goal next) := by
  refine Issues.raising_bind (Issues.send trivial) fun token => ?_
  split
  · exact Issues.send hrow
  · refine Issues.raising_bind (Issues.send trivial) fun matched => ?_
    split
    · trivial
    · exact Issues.raising_bind (writes_rejectIfNewer trivial) fun _ => Issues.send hrow

theorem writes_swallowing {body : Reviewing Unit} (h : body.run.Issues (Writes goal next)) :
    (swallowing body).run.Issues (Writes goal next) := by
  refine Issues.attempt_bind h fun outcome => ?_
  split <;> trivial

theorem writes_coachPlan (happroved : goal.approvedPlan = some approved) :
    (coachPlan hex goal drafted).run.Issues
      (Writes goal (applyCoachUpdates hex approved drafted)) := by
  unfold coachPlan
  rw [happroved]
  dsimp only
  split
  · trivial
  · refine Issues.raising_bind (writes_fencedUpdateOne (fun _ => rfl) trivial) fun _ => ?_
    exact writes_swallowing (writes_fencedUpdateOne (fun _ => ⟨rfl, rfl⟩) trivial)

variable {weekly : Bool}

theorem writes_proposeRevision :
    (proposeRevision goal weekly drafted).run.Issues (Writes goal next) := by
  unfold proposeRevision
  split
  · split
    · trivial
    · split
      · refine writes_swallowing (writes_fencedPropose fun version hversion => ?_)
        rw [version?_revisedPlan] at hversion
        exact (Option.some.inj hversion).symm
      · trivial
  · trivial

theorem writes_buildReview (happroved : goal.approvedPlan = some approved) :
    (buildReview hex goal weekly drafted).run.Issues
      (Writes goal (applyCoachUpdates hex approved drafted)) := by
  refine Issues.raising_bind (writes_fencedUpdateOne (fun _ => trivial) trivial) fun _ => ?_
  refine Issues.raising_bind (writes_coachPlan happroved) fun _ => ?_
  refine Issues.raising_bind (Issues.send trivial) fun _ => ?_
  refine Issues.raising_bind (Issues.send trivial) fun _ => ?_
  refine Issues.raising_bind ?_ fun _ => writes_proposeRevision
  unfold recordDaily
  split
  · exact Issues.send trivial
  · trivial

/-- The stored plan is what the user has written last or what the review has written over it, and
the rows are as they were but for the one that the review has written. -/
structure Reviewed (goal : GoalDoc) (next : Plan) (s : State) : Prop where
  untouched : s.coachedOver = none → s.goal.approvedPlan = some s.latest
  coached : ∀ beneath, s.coachedOver = some beneath →
    beneath = s.latest ∧ s.goal.approvedPlan = some next
  rows : ∀ row ∈ s.versions, row.Own ∨
    s.coachedRow = true ∧ row.version = goal.activeVersion ∧ row.plan = next
  written : s.coachedRow = true →
    ∃ row ∈ s.versions, row.version = goal.activeVersion ∧ row.plan = next

theorem Loaded.reviewed (h : Loaded goal approved s) : Reviewed goal next s := by
  refine ⟨fun _ => ?_, fun beneath hbeneath => ?_, fun row hmem => .inl (h.rows row hmem),
    fun hrow => ?_⟩
  · rw [h.same, h.plan, h.latest]
  · rw [h.coachedOver] at hbeneath
    cases hbeneath
  · rw [h.coachedRow] at hrow
    cases hrow

theorem Reviewed.elsewhere (h : Reviewed goal next s) (hmove : Elsewhere s s') :
    Reviewed goal next s' := by
  cases hmove with
  | write plan version => exact ⟨fun _ => rfl, nofun, h.rows, h.written⟩
  | fence token => exact ⟨h.untouched, h.coached, h.rows, h.written⟩

theorem Reviewed.touch {find : VersionRow → Bool} {change : VersionRow → VersionRow}
    {versions : List VersionRow} (h : Reviewed goal next s)
    (hupdate : updateFirst find change s.versions = some versions)
    (hsame : ∀ row, (change row).version = row.version ∧ (change row).plan = row.plan) :
    Reviewed goal next { s with versions } := by
  have hown : ∀ row : VersionRow, row.Own → (change row).Own := by
    intro row hrow version hversion
    rw [(hsame row).2] at hversion
    rw [(hsame row).1]
    exact hrow version hversion
  refine ⟨h.untouched, h.coached, fun row hmem => ?_, fun hcoached => ?_⟩
  · rcases mem_of_updateFirst hupdate hmem with hold | ⟨old, hold, -, rfl⟩
    · exact h.rows row hold
    · rcases h.rows old hold with hrow | ⟨hcoached, hversion, hplan⟩
      · exact .inl (hown old hrow)
      · exact .inr ⟨hcoached, (hsame old).1.trans hversion, (hsame old).2.trans hplan⟩
  · obtain ⟨row, hmem, hversion, hplan⟩ := h.written hcoached
    rcases updateFirst_of_mem hupdate hmem with hthere | hchanged
    · exact ⟨row, hthere, hversion, hplan⟩
    · exact ⟨change row, hchanged, (hsame row).1.trans hversion, (hsame row).2.trans hplan⟩

theorem Reviewed.run {α : Type} (unique : Bool) {command : Command α}
    (hwrites : Writes goal next (.send command : Remote Failure Command _))
    (h : Reviewed goal next s) : Reviewed goal next (State.run unique command s).2 := by
  cases command with
  | patchProgress token =>
    unfold State.run State.patch
    dsimp only
    split
    · exact ⟨h.untouched, h.coached, h.rows, h.written⟩
    · exact h
  | patchPlan token plan =>
    obtain rfl : plan = next := hwrites
    unfold State.run State.patch
    dsimp only
    split
    · refine ⟨nofun, fun beneath hbeneath => ?_, h.rows, h.written⟩
      exact ⟨(Option.some.inj hbeneath).symm, rfl⟩
    · exact h
  | updateVersion token version plan =>
    obtain ⟨rfl, rfl⟩ : version = goal.activeVersion ∧ plan = next := hwrites
    unfold State.run
    dsimp only
    split
    · next versions hupdate =>
      refine ⟨h.untouched, h.coached, fun row hmem => ?_, fun _ => ?_⟩
      · rcases mem_of_updateFirst hupdate hmem with hold | ⟨old, -, hfind, rfl⟩
        · rcases h.rows row hold with hrow | ⟨-, hat⟩
          · exact .inl hrow
          · exact .inr ⟨rfl, hat⟩
        · have hversion : old.version = goal.activeVersion := by
            unfold VersionRow.isAt at hfind
            simp only [Bool.and_eq_true, decide_eq_true_eq] at hfind
            exact hfind.1.1
          exact .inr ⟨rfl, hversion, rfl⟩
      · obtain ⟨old, -, hfind, hnew⟩ := exists_of_updateFirst hupdate
        have hversion : old.version = goal.activeVersion := by
          unfold VersionRow.isAt at hfind
          simp only [Bool.and_eq_true, decide_eq_true_eq] at hfind
          exact hfind.1.1
        exact ⟨_, hnew, hversion, rfl⟩
    · exact h
  | touchProposed token version =>
    unfold State.run
    dsimp only
    split
    · next versions hupdate => exact h.touch hupdate fun row => ⟨rfl, rfl⟩
    · exact h
  | propose token row =>
    have hrow : row.Own := hwrites
    unfold State.run
    dsimp only
    split
    · next versions hupdate => exact h.touch hupdate fun row => ⟨rfl, rfl⟩
    · split
      · exact h
      · refine ⟨h.untouched, h.coached, fun other hmem => ?_, fun hcoached => ?_⟩
        · rcases List.mem_append.mp hmem with hold | hnew
          · exact h.rows other hold
          · rw [List.mem_singleton.mp hnew]
            exact .inl hrow
        · obtain ⟨other, hmem, hat⟩ := h.written hcoached
          exact ⟨other, List.mem_append_left _ hmem, hat⟩
  | _ => exact h

variable {β : Type}

theorem Reviewed.command {unique : Bool} (command : Remote Failure Command β) (s : State)
    (reply : β) (s' : State) (hwrites : Writes goal next command) (h : Reviewed goal next s)
    (hstep : goes unique command s reply s') : Reviewed goal next s' := by
  rcases command with @⟨α, command⟩
  cases command with
  | leaseToken =>
    obtain rfl : s' = s := hstep
    exact h
  | record =>
    obtain rfl : s' = s := hstep
    exact h
  | _ =>
    rcases Answers.state hstep with rfl | rfl
    · exact h
    · exact h.run unique hwrites

theorem reviewed_of_run {unique : Bool} {start : State}
    {rest : Program (Remote Failure Command) (Except Failure Unit)}
    (hloaded : Loaded goal approved start)
    (hrun : ReviewRun unique (buildReview hex goal weekly drafted).run start rest s) :
    Reviewed goal (applyCoachUpdates hex approved drafted) s := by
  have hissues : (buildReview hex goal weekly drafted).run.Issues
      (Writes goal (applyCoachUpdates hex approved drafted)) :=
    writes_buildReview hloaded.plan
  exact (Issues.reach (Reviewed goal (applyCoachUpdates hex approved drafted))
    (fun s s' h hmove => h.elsewhere hmove)
    (fun command s reply s' hwrites h hstep => h.command command s reply s' hwrites hstep)
    hissues hloaded.reviewed hrun).1

/-- At every moment, and so when the review finishes, the progress is kept exactly if the plan that
the review has written over, without anyone writing since, was the one it had loaded, but for the
coach's fields, and the plan that it has written into a row has the version of that row or none. -/
theorem keeps_progress_iff (hex : Nat → String) (goal : GoalDoc) (approved : Plan) (drafted : Draft)
    (unique weekly : Bool) (start s : State)
    (rest : Program (Remote Failure Command) (Except Failure Unit))
    (hloaded : Loaded goal approved start)
    (hrun : ReviewRun unique (buildReview hex goal weekly drafted).run start rest s) :
    KeepsProgress s ↔
      (∀ beneath, s.coachedOver = some beneath → SameProgress beneath approved) ∧
        (s.coachedRow = true → ∀ version, approved.version? = some version →
          version = goal.activeVersion) := by
  have h := reviewed_of_run hloaded hrun
  have hnext := sameProgress_applyCoachUpdates hex approved drafted
  have hversion := version?_of_sameProgress hnext
  constructor
  · rintro ⟨⟨plan, hplan, hsame⟩, hrows⟩
    refine ⟨fun beneath hbeneath => ?_, fun hcoached version happroved => ?_⟩
    · obtain ⟨rfl, hstored⟩ := h.coached beneath hbeneath
      rw [hstored] at hplan
      obtain rfl := Option.some.inj hplan
      exact hsame.symm.trans hnext
    · obtain ⟨row, hmem, hat, hrow⟩ := h.written hcoached
      rw [← hat]
      apply hrows row hmem version
      rw [hrow, hversion, happroved]
  · rintro ⟨hbeneath, hrow⟩
    refine ⟨?_, fun row hmem => ?_⟩
    · cases hcoached : s.coachedOver with
      | none => exact ⟨s.latest, h.untouched hcoached, .refl _⟩
      | some beneath =>
        obtain ⟨rfl, hstored⟩ := h.coached beneath hcoached
        exact ⟨_, hstored, hnext.trans (hbeneath _ hcoached).symm⟩
    · rcases h.rows row hmem with hown | ⟨hcoached, hat, hplan⟩
      · exact hown
      · intro version hstored
        rw [hplan, hversion] at hstored
        rw [hat]
        exact hrow hcoached version hstored

/-! A plan whose first step the user marks as done while the model is writing the review. -/

def openPlan : Plan := fun field =>
  match field with
  | "version" => some (.int 1)
  | "days" => some (.json "[\x7b\"title\": \"Day 1\", \"status\": \"open\"\x7d]" true)
  | _ => none

def donePlan : Plan :=
  openPlan.set "days" (.json "[\x7b\"title\": \"Day 1\", \"status\": \"done\"\x7d]" true)

def openGoal : GoalDoc := ⟨"u1", some openPlan, some 1, none⟩

def sampleDraft : Draft where
  focus := ""
  recommendation := ""
  proposeRevision := false
  revisionNote := ""
  strategies := [⟨"s1", "Practise", "Practise daily.", "", "", [], "", []⟩]
  priorityRecommendations := []

def openState : State where
  goal := openGoal
  versions := [⟨1, some "approved", "u1", openPlan, none⟩]
  latest := openPlan

def markDone (s : State) : State :=
  { s with
    goal := { s.goal with approvedPlan := some donePlan, activePlanVersion := some 1 }
    latest := donePlan
    coachedOver := none }

def arrivesBefore (found : ∀ {α : Type}, Command α → Bool) {β : Type}
    (command : Remote Failure Command β) (s : State) : State :=
  match command with
  | .send command => if found command then markDone s else s

def writesPlan {α : Type} : Command α → Bool
  | .patchPlan .. => true
  | _ => false

def reviewOf (found : ∀ {α : Type}, Command α → Bool) : Except Failure Unit × State :=
  (buildReview (fun _ => "0a1b2c") openGoal false sampleDraft).run.eval
    (fun command s => Remote.answer (State.run true) command (arrivesBefore found command s))
    openState

theorem elsewhere_arrivesBefore (found : ∀ {α : Type}, Command α → Bool)
    (command : Remote Failure Command β) (s : State) :
    Elsewhere s (arrivesBefore found command s) := by
  rcases command with @⟨α, command⟩
  unfold arrivesBefore
  dsimp only
  split
  · exact .write donePlan (some 1)
  · exact .fence s.goal.processingFence

theorem goes_answer (command : Remote Failure Command β) (s : State) :
    goes true command s (Remote.answer (State.run true) command s).1
      (Remote.answer (State.run true) command s).2 := by
  rcases command with @⟨α, command⟩
  cases command with
  | leaseToken => rfl
  | record => rfl
  | _ => exact .answered

theorem run_reviewOf (found : ∀ {α : Type}, Command α → Bool) :
    ReviewRun true (buildReview (fun _ => "0a1b2c") openGoal false sampleDraft).run openState
      (.ret (reviewOf found).1) (reviewOf found).2 :=
  reach_eval_arriving (elsewhere_arrivesBefore found) goes_answer _ _

theorem loaded_openState : Loaded openGoal openPlan openState := by
  refine ⟨rfl, rfl, rfl, rfl, rfl, fun row hmem version hversion => ?_⟩
  rw [List.mem_singleton.mp hmem] at hversion ⊢
  exact (Option.some.inj hversion).symm

/-- Where the user does not write in the meantime, the review keeps the progress. -/
theorem keeps_progress_undisturbed :
    (reviewOf fun _ => false).1 = .ok () ∧ KeepsProgress (reviewOf fun _ => false).2 := by
  refine ⟨rfl, ?_⟩
  apply (keeps_progress_iff (fun _ => "0a1b2c") openGoal openPlan sampleDraft true false openState
    _ _ loaded_openState (run_reviewOf fun _ => false)).mpr
  refine ⟨fun beneath hbeneath => ?_, fun _ version hversion => ?_⟩
  · have hopen : openPlan = beneath := Option.some.inj hbeneath
    rw [hopen]
    exact .refl beneath
  · exact (Option.some.inj hversion).symm

/-- The step that the user has marked as done, before the review writes its plan, is open again. -/
theorem done_step_reopened :
    (reviewOf writesPlan).1 = .ok () ∧
      (reviewOf writesPlan).2.latest "days" =
        some (.json "[\x7b\"title\": \"Day 1\", \"status\": \"done\"\x7d]" true) ∧
      (reviewOf writesPlan).2.goal.approvedPlan.bind (· "days") =
        some (.json "[\x7b\"title\": \"Day 1\", \"status\": \"open\"\x7d]" true) ∧
      ReviewRun true (buildReview (fun _ => "0a1b2c") openGoal false sampleDraft).run openState
        (.ret (reviewOf writesPlan).1) (reviewOf writesPlan).2 ∧
      ¬ KeepsProgress (reviewOf writesPlan).2 := by
  have hlatest : (reviewOf writesPlan).2.latest "days" =
      some (.json "[\x7b\"title\": \"Day 1\", \"status\": \"done\"\x7d]" true) := rfl
  have hstored : (reviewOf writesPlan).2.goal.approvedPlan.bind (· "days") =
      some (.json "[\x7b\"title\": \"Day 1\", \"status\": \"open\"\x7d]" true) := by
    decide +kernel
  refine ⟨rfl, hlatest, hstored, run_reviewOf writesPlan, ?_⟩
  rintro ⟨⟨plan, hplan, hsame⟩, -⟩
  rw [hplan] at hstored
  have hdays := hsame "days" (by decide)
  rw [hlatest] at hdays
  have hopen : plan "days" =
      some (.json "[\x7b\"title\": \"Day 1\", \"status\": \"open\"\x7d]" true) := hstored
  rw [hopen] at hdays
  revert hdays
  decide

end AiBuddy.Goals.CoachReview
