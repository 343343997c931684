import AiBuddy.Goals.ReviewSchedule

/-!
# What the review schedule keeps

The insert of a job leaves a debt that the next command pays, the publication of its event. Where
every debt is paid and no job is inserted over another one, a review is neither stuck nor doubled.
A queued job whose event has not been published ends this: every later pass finds it.
-/

namespace AiBuddy.Goals.ReviewSchedule

open Program

variable {s s' : State} {slot : Slot}

def inserts {β : Type} (command : Remote Failure Command β) (reply : β) (jobId : Nat) : Prop :=
  match β, command, reply with
  | _, .send (.insertJob ..), .ok inserted => inserted = jobId
  | _, _, _ => False

def State.Owed (jobId : Nat) (s : State) : Prop :=
  ∃ job ∈ s.jobs, job.id = jobId ∧ job.status = .queued ∧ s.isPublished jobId = false

variable {goal : ScheduledGoal}

theorem prompt_queueReview {slot : Slot} :
    (queueReview goal slot).run.Prompt inserts publishes := by
  apply Prompt.send_then
  · exact fun _ _ h => h
  · exact fun _ _ h => h
  · exact fun _ => Prompt.send fun _ _ h => h

theorem prompt_enqueuePeriod {moment : Moment} {periodType : PeriodType} :
    (enqueuePeriod goal moment periodType).run.Prompt inserts publishes := by
  unfold enqueuePeriod
  split
  · trivial
  · refine Prompt.raising_bind (Prompt.send fun _ _ h => h) fun existing => ?_
    refine Prompt.raising_bind (Prompt.send fun _ _ h => h) fun snapshot => ?_
    dsimp only
    split
    · trivial
    · refine Prompt.raising_bind (Prompt.send fun _ _ h => h) fun queued => ?_
      split
      · trivial
      · exact prompt_queueReview

theorem prompt_enqueueGoal : (enqueueGoal goal).run.Prompt inserts publishes := by
  refine Prompt.raising_bind (Prompt.send fun _ _ h => h) fun moment => ?_
  split
  · exact Prompt.raising_bind prompt_enqueuePeriod
      fun _ => prompt_enqueuePeriod
  · trivial

theorem prompt_enqueueGoals (goals : List ScheduledGoal) :
    (enqueueGoals goals).run.Prompt inserts publishes := by
  induction goals with
  | nil => trivial
  | cons goal rest ih => exact Prompt.raising_bind prompt_enqueueGoal fun _ => ih

theorem prompt_enqueueDueReviews : enqueueDueReviews.run.Prompt inserts publishes :=
  Prompt.raising_bind (Prompt.send fun _ _ h => h) prompt_enqueueGoals

theorem Worked.eq_of_queued {job job' : ReviewJob} (h : Worked s job job')
    (hqueued : job'.status = .queued) : job' = job := by
  rcases h with hsame | ⟨-, -, rfl⟩ | ⟨-, status, hstatus, rfl⟩
  · exact hsame
  · cases hqueued
  · rcases hstatus with rfl | rfl <;> cases hqueued

theorem Worked.active {job job' : ReviewJob} (h : Worked s job job') :
    job'.slot = job.slot ∧ (job'.active = true → job.active = true) := by
  rcases h with rfl | ⟨hqueued, -, rfl⟩ | ⟨hrunning, status, hstatus, rfl⟩
  · exact ⟨rfl, id⟩
  · exact ⟨rfl, fun _ => by simp [ReviewJob.active, hqueued]⟩
  · exact ⟨rfl, fun _ => by simp [ReviewJob.active, hrunning]⟩

variable {α : Type}

theorem exists_of_forall₂ {R : α → α → Prop} {before after : List α} {new : α}
    (h : List.Forall₂ R before after) (hmem : new ∈ after) : ∃ old ∈ before, R old new := by
  induction h with
  | nil => cases hmem
  | cons hfirst _ ih =>
    rcases List.mem_cons.mp hmem with rfl | hrest
    · exact ⟨_, List.mem_cons_self, hfirst⟩
    · obtain ⟨old, hold, hrel⟩ := ih hrest
      exact ⟨old, List.mem_cons_of_mem _ hold, hrel⟩

theorem length_filter_le {R : α → α → Prop} {p : α → Bool} {before after : List α}
    (h : List.Forall₂ R before after) (hle : ∀ old new, R old new → p new = true → p old = true) :
    (after.filter p).length ≤ (before.filter p).length := by
  induction h with
  | nil => exact Nat.le_refl _
  | @cons old new _ _ hfirst _ ih =>
    by_cases hnew : p new = true
    · rw [List.filter_cons_of_pos hnew, List.filter_cons_of_pos (hle old new hfirst hnew)]
      exact Nat.succ_le_succ ih
    · rw [List.filter_cons_of_neg hnew]
      exact Nat.le_trans ih ((List.sublist_cons_self old _).filter p).length_le

variable {jobId : Nat}

theorem Elsewhere.owed (h : Elsewhere s s') (howed : s'.Owed jobId) : s.Owed jobId := by
  obtain ⟨job', hmem, hid, hqueued, hpublished⟩ := howed
  obtain ⟨job, hjob, hworked⟩ := exists_of_forall₂ h.2 hmem
  obtain rfl := hworked.eq_of_queued hqueued
  refine ⟨job', hjob, hid, hqueued, ?_⟩
  unfold State.isPublished at hpublished ⊢
  rwa [h.1] at hpublished

theorem Elsewhere.activeJobs_le (h : Elsewhere s s') (slot : Slot) :
    (s'.activeJobs slot).length ≤ (s.activeJobs slot).length := by
  apply length_filter_le h.2
  intro job job' hworked hactive
  obtain ⟨hslot, himp⟩ := hworked.active
  simp only [Bool.and_eq_true, decide_eq_true_eq] at hactive ⊢
  exact ⟨hslot ▸ hactive.1, himp hactive.2⟩

theorem activeJobs_insert {s : State} {slot inserted : Slot} {ownerId : String} :
    (State.run (.insertJob inserted ownerId) s).2.activeJobs slot =
      s.activeJobs slot ++ if inserted = slot then [s.newJob inserted ownerId] else [] := by
  show (s.jobs ++ [s.newJob inserted ownerId]).filter _ = _
  rw [List.filter_append]
  congr 1
  by_cases hslot : inserted = slot <;>
    simp [State.newJob, ReviewJob.active, hslot]

theorem owed_insert {inserted : Slot} {ownerId : String}
    (h : (State.run (.insertJob inserted ownerId) s).2.Owed jobId) :
    s.jobs.length = jobId ∨ s.Owed jobId := by
  obtain ⟨job, hmem, hid, hqueued, hpublished⟩ := h
  rcases List.mem_append.mp hmem with hold | hnew
  · exact .inr ⟨job, hold, hid, hqueued, hpublished⟩
  · rw [List.mem_singleton.mp hnew] at hid
    exact .inl hid

theorem owed_publish {event : ReviewEvent} (h : (State.run (.publish event) s).2.Owed jobId) :
    s.Owed jobId := by
  obtain ⟨job, hmem, hid, hqueued, hpublished⟩ := h
  have hmore : s.published.any (·.jobId = jobId) = true →
      (s.published ++ [event]).any (·.jobId = jobId) = true := by
    intro hany
    rw [List.any_append, hany]
    rfl
  refine ⟨job, hmem, hid, hqueued, ?_⟩
  by_contra htrue
  have hthere : (s.published ++ [event]).any (·.jobId = jobId) = true :=
    hmore (eq_true_of_ne_false htrue)
  exact absurd hthere (ne_true_of_eq_false hpublished)

variable {β : Type}

theorem owed_after (command : Remote Failure Command β) (s : State) (reply : β) (s' : State)
    (jobId : Nat) (hstep : goes orderly command s reply s') (howed : s'.Owed jobId) :
    inserts command reply jobId ∨ s.Owed jobId ∧ ¬ publishes jobId command := by
  rcases command with @⟨α, command⟩
  obtain ⟨hanswers, horderly⟩ : Answers Failure.connection (State.run command) s reply s' ∧
    orderly command s reply s' := hstep
  cases command with
  | insertJob inserted ownerId =>
    rcases horderly with hsame | ⟨-, inserted', hreply⟩
    · rw [hsame] at howed
      exact .inr ⟨howed, id⟩
    · subst hreply
      have hrun := hanswers.of_ok
      have hstate : s' = (State.run (.insertJob inserted ownerId) s).2 :=
        (congrArg Prod.snd hrun).symm
      have hid : s.jobs.length = inserted' := by
        have hfst := congrArg Prod.fst hrun
        exact Except.ok.inj hfst
      rw [hstate] at howed
      rcases owed_insert howed with hnew | hold
      · exact .inl (hid.symm.trans hnew)
      · exact .inr ⟨hold, id⟩
  | publish event =>
    have hpublished : s'.isPublished event.jobId = true := horderly
    refine .inr ⟨?_, ?_⟩
    · rcases hanswers.state with hsame | hrun
      · rwa [hsame] at howed
      · rw [hrun] at howed
        exact owed_publish howed
    · rintro hpays
      obtain ⟨-, -, -, -, hnot⟩ := howed
      have hid : event.jobId = jobId := hpays
      rw [← hid, hpublished] at hnot
      cases hnot
  | _ =>
    refine .inr ⟨?_, id⟩
    rcases hanswers.state with hsame | hrun
    · rwa [hsame] at howed
    · rw [hrun] at howed
      exact howed

theorem single_after (command : Remote Failure Command β) (s : State) (reply : β) (s' : State)
    (hsingle : s.Single) (hstep : goes orderly command s reply s') : s'.Single := by
  intro slot
  rcases command with @⟨α, command⟩
  obtain ⟨hanswers, horderly⟩ : Answers Failure.connection (State.run command) s reply s' ∧
    orderly command s reply s' := hstep
  rcases hanswers.state with hsame | hrun
  · rw [hsame]
    exact hsingle slot
  · cases command with
    | insertJob inserted ownerId =>
      rcases horderly with hsame | ⟨hnone, -⟩
      · rw [hsame]
        exact hsingle slot
      · rw [hrun, activeJobs_insert]
        by_cases hslot : inserted = slot
        · subst hslot
          rw [hnone, if_pos rfl]
          exact Nat.le_refl _
        · rw [if_neg hslot, List.append_nil]
          exact hsingle slot
    | _ =>
      rw [hrun]
      exact hsingle slot

structure Quiet (slot : Slot) (s s' : State) : Prop where
  active : s'.activeJobs slot ≠ []
  published : ∃ more, s'.published = s.published ++ more ∧ ∀ event ∈ more, event.slot ≠ slot

def Spares {α : Type} (slot : Slot) (prog : Scheduling α) : Prop :=
  ∀ s, s.activeJobs slot ≠ [] → Quiet slot s (prog.run.eval (Remote.answer State.run) s).2

theorem Quiet.refl (h : s.activeJobs slot ≠ []) : Quiet slot s s :=
  ⟨h, [], (List.append_nil _).symm, nofun⟩

theorem Quiet.trans {s₁ s₂ s₃ : State} (h : Quiet slot s₁ s₂) (h' : Quiet slot s₂ s₃) :
    Quiet slot s₁ s₃ := by
  obtain ⟨more, hmore, hother⟩ := h.published
  obtain ⟨more', hmore', hother'⟩ := h'.published
  refine ⟨h'.active, more ++ more', ?_, ?_⟩
  · rw [hmore', hmore, List.append_assoc]
  · intro event hmem
    rcases List.mem_append.mp hmem with hfirst | hsecond
    · exact hother event hfirst
    · exact hother' event hsecond

theorem Spares.bind {prog : Scheduling α} {f : α → Scheduling β} (h : Spares slot prog)
    (hnext : ∀ value, Spares slot (f value)) :
    Spares slot (prog >>= f) := by
  intro s hactive
  have hfirst := h s hactive
  rcases heval : prog.run.eval (Remote.answer State.run) s with ⟨error | value, s₁⟩
  · rw [heval] at hfirst
    rw [eval_bind_error heval]
    exact hfirst
  · rw [heval] at hfirst
    rw [eval_bind_ok heval]
    exact hfirst.trans (hnext value s₁ hfirst.active)

theorem spares_ask {command : Command α}
    (h : ∀ s, s.activeJobs slot ≠ [] → Quiet slot s (State.run command s).2) :
    Spares slot (ask command) := fun s hactive => h s hactive

theorem spares_pure : Spares slot (return ()) := fun _ hactive => .refl hactive

theorem spares_queueReview {other : Slot} (h : other ≠ slot) :
    Spares slot (queueReview goal other) := by
  refine Spares.bind (spares_ask fun s hactive => ⟨?_, [], (List.append_nil _).symm, nofun⟩)
    fun jobId => spares_ask fun s hactive => ⟨hactive, [⟨jobId, goal.ownerId, other⟩], rfl, ?_⟩
  · rw [activeJobs_insert, if_neg h, List.append_nil]
    exact hactive
  · intro event hmem
    rw [List.mem_singleton.mp hmem]
    exact h

theorem spares_enqueuePeriod {moment : Moment} {periodType : PeriodType} :
    Spares slot (enqueuePeriod goal moment periodType) := by
  unfold enqueuePeriod
  split
  · exact spares_pure
  · refine Spares.bind (spares_ask fun s hactive => .refl hactive) fun existing => ?_
    refine Spares.bind (spares_ask fun s hactive => .refl hactive) fun snapshot => ?_
    dsimp only
    split
    · exact spares_pure
    · by_cases hslot : slotAt goal periodType moment = slot
      · intro s hactive
        have hqueued : (ask (.findQueued (slotAt goal periodType moment))).run.eval
            (Remote.answer State.run) s = (.ok true, s) := by
          rw [hslot]
          show (Except.ok !(s.activeJobs slot).isEmpty, s) = _
          rw [List.isEmpty_eq_false_iff.mpr hactive]
          rfl
        rw [eval_bind_ok hqueued, if_pos rfl]
        exact .refl hactive
      · refine Spares.bind (spares_ask fun s hactive => .refl hactive) fun queued => ?_
        split
        · exact spares_pure
        · exact spares_queueReview hslot

theorem spares_enqueueGoals (goals : List ScheduledGoal) : Spares slot (enqueueGoals goals) := by
  induction goals with
  | nil => exact spares_pure
  | cons goal rest ih =>
    refine Spares.bind ?_ fun _ => ih
    refine Spares.bind (spares_ask fun s hactive => .refl hactive) fun moment => ?_
    split
    · exact Spares.bind spares_enqueuePeriod
        fun _ => spares_enqueuePeriod
    · exact spares_pure

theorem not_recovers_of_active (h : s.activeJobs slot ≠ []) : ¬ s.Recovers slot := by
  rintro ⟨now, event, hmem, hslot⟩
  have hspares : Spares slot enqueueDueReviews :=
    Spares.bind (spares_ask fun s hactive => .refl hactive) spares_enqueueGoals
  obtain ⟨more, hmore, hother⟩ := (hspares { s with now } h).published
  rw [hmore] at hmem
  have hnew : event ∈ more := by simpa using hmem
  exact hother event hnew hslot

/-! One active goal on a Tuesday morning. -/

def sampleGoal : ScheduledGoal := ⟨"g1", "u1", "ACTIVE", "Asia/Kolkata"⟩

def sampleStart : State where
  goals := [sampleGoal]
  reviews _ := none
  snapshots _ := none
  jobs := []
  published := []
  now _ := ⟨9, 0, 2, 2025, 10, "2025-03-04"⟩

def sampleSlot : Slot := ⟨"g1", .daily, "2025-03-04"⟩

def withoutRedis {β : Type} (command : Remote Failure Command β) (s : State) : β × State :=
  match β, command with
  | _, .send (.publish _) => (.error .connection, s)
  | _, .send command => State.run command s

def doubledPool : SchedulerPool :=
  Pool.turns (Remote.answer State.run) [0, 0, 0, 0, 0, 1, 1, 1, 1, 1, 0, 0, 1, 1]
    ⟨[enqueueDueReviews.run, enqueueDueReviews.run], sampleStart⟩

def stuckPool : SchedulerPool :=
  Pool.turns withoutRedis [0, 0, 0, 0, 0, 0, 0] ⟨[enqueueDueReviews.run], sampleStart⟩

def enqueuedPool : SchedulerPool :=
  Pool.turns (Remote.answer State.run) [0, 0, 0, 0, 0, 0, 0] ⟨[enqueueDueReviews.run], sampleStart⟩

def insertsFirst {β : Type} (command : Remote Failure Command β) (s : State) : Bool :=
  match command with
  | .send (.insertJob slot _) => (s.activeJobs slot).isEmpty
  | _ => true

theorem goes_orderly (command : Remote Failure Command β) (s : State)
    (h : insertsFirst command s = true) :
    goes orderly command s (Remote.answer State.run command s).1
      (Remote.answer State.run command s).2 := by
  rcases command with @⟨α, command⟩
  refine ⟨.answered, ?_⟩
  cases command with
  | insertJob slot ownerId => exact .inr ⟨List.isEmpty_iff.mp h, _, rfl⟩
  | publish event =>
    show (s.published ++ [event]).any (·.jobId = event.jobId) = true
    simp
  | _ => trivial

theorem goes_anyhow (command : Remote Failure Command β) (s : State) :
    goes anyhow command s (Remote.answer State.run command s).1
      (Remote.answer State.run command s).2 := by
  rcases command with @⟨α, command⟩
  exact ⟨.answered, trivial⟩

theorem goes_withoutRedis (command : Remote Failure Command β) (s : State) :
    goes anyhow command s (withoutRedis command s).1 (withoutRedis command s).2 := by
  rcases command with @⟨α, command⟩
  cases command with
  | publish event => exact ⟨.unsent, trivial⟩
  | _ => exact ⟨.answered, trivial⟩

end AiBuddy.Goals.ReviewSchedule
