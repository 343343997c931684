import AiBuddy.Goals.Proofs.DurableStep

/-!
# Writes that raise

What `handle` leaves behind when one write of `save_step` raises: the writes before it stay, and
the job is failed unless the attempt had found its step stored.
-/

namespace AiBuddy.Goals

open Program

variable {s₁ : State} {update : JobUpdate}

section Failures

variable {builders : Builders} {attempt : Attempt} {token : Int} {write : StepWrite}
  {applied : Bool} {s s' s₀ : State} {job : Job} {goal : Goal} {step : DurableStep} {plan : Plan}
  {row : PlanVersion} {durable : Option DurableStep} {α β : Type} {error : Failure}

abbrev Yields (builders : Builders) (token : Int) (write : StepWrite) (applied : Bool)
    (prog : Working α) (s : State) (outcome : Except Failure α) (s' : State) : Prop :=
  prog.run.eval (answerRaising builders token write applied) s = (outcome, s')

theorem yields_send {command : Command α} {value : α} (hother : write.is command = false)
    (hrun : run builders token command s = (.ok value, s')) :
    Yields builders token write applied (send command) s (.ok value) s' := by
  have hanswer : answerRaising builders token write applied (.send command) s =
      (.ok value, s') := by
    simp only [answerRaising, Remote.answer]
    rw [hother, hrun]
    rfl
  unfold Yields send Program.send
  rw [ExceptT.run_mk, eval_issue_bind, eval_ret, hanswer]
  rfl

theorem yields_raise {command : Command α} (hwrite : write.is command = true)
    (hrun : (run builders token command s).2 = s') :
    Yields builders token write applied (send command) s (.error .exception)
      (if applied then s' else s) := by
  have hanswer : answerRaising builders token write applied (.send command) s =
      (.error .exception, if applied then s' else s) := by
    simp only [answerRaising, Remote.answer]
    rw [hwrite, hrun]
    rfl
  unfold Yields send Program.send
  rw [ExceptT.run_mk, eval_issue_bind, eval_ret, hanswer]
  rfl

theorem yields_bind {prog : Working α} {f : α → Working β} {value : α}
    {outcome : Except Failure β} (h : Yields builders token write applied prog s (.ok value) s₁)
    (hnext : Yields builders token write applied (f value) s₁ outcome s') :
    Yields builders token write applied (prog >>= f) s outcome s' :=
  (eval_bind_ok h).trans hnext

theorem yields_error {prog : Working α} {f : α → Working β}
    (h : Yields builders token write applied prog s (.error error) s') :
    Yields builders token write applied (prog >>= f) s (.error error) s' := eval_bind_error h

theorem yields_attempt {prog : Working α} {f : Except Failure α → Working β}
    {outcome : Except Failure α} {outcome' : Except Failure β}
    (h : Yields builders token write applied prog s outcome s₁)
    (hnext : Yields builders token write applied (f outcome) s₁ outcome' s') :
    Yields builders token write applied (Program.attempt prog >>= f) s outcome' s' :=
  (eval_attempt_bind h).trans hnext

theorem run_updateJob (hjob : s.job = some job)
    (hfence : fenceClause job.processingFence token = true) :
    run builders token (.updateJob update token) s = (.ok 1, s.updateJob token update job) := by
  simp only [run, hjob, hfence, if_true]

theorem yields_updateJob (hjob : s.job = some job)
    (hfence : fenceClause job.processingFence token = true)
    (hother : write.is (.updateJob update token) = false) :
    Yields builders token write applied (updateJob update token) s (.ok ())
      (s.updateJob token update job) :=
  yields_bind (yields_send rfl rfl)
    (yields_bind (yields_send hother (run_updateJob hjob hfence)) rfl)

theorem yields_updateJob_raise (hjob : s.job = some job)
    (hfence : fenceClause job.processingFence token = true)
    (hwrite : write.is (.updateJob update token) = true) :
    Yields builders token write applied (updateJob update token) s (.error .exception)
      (if applied then s.updateJob token update job else s) :=
  yields_bind (yields_send rfl rfl)
    (yields_error (yields_raise hwrite (congrArg Prod.snd (run_updateJob hjob hfence))))

theorem run_updateGoal {update : GoalUpdate} (hgoal : s.goal = some goal)
    (hfence : fenceClause goal.processingFence token = true)
      (haccepts : goal.accepts update = true) :
    run builders token (.updateGoal update token) s = (.ok 1, s.updateGoal token update goal) := by
  simp only [run, hgoal, hfence, haccepts, Bool.and_self, if_true]

theorem yields_updateGoal {update : GoalUpdate} (hgoal : s.goal = some goal)
    (hfence : fenceClause goal.processingFence token = true) (haccepts : goal.accepts update = true)
    (hother : write.is (.updateGoal update token) = false) :
    Yields builders token write applied (updateGoal update token) s (.ok ())
      (s.updateGoal token update goal) :=
  yields_bind (yields_send rfl rfl)
    (yields_bind (yields_send hother (run_updateGoal hgoal hfence haccepts)) rfl)

theorem yields_updateGoal_raise (hgoal : s.goal = some goal)
    (hfence : fenceClause goal.processingFence token = true) :
    Yields builders token .goal applied (updateGoal (.step step) token) s (.error .exception)
      (if applied then s.updateGoal token (.step step) goal else s) :=
  yields_bind (yields_send rfl rfl)
    (yields_error (yields_raise rfl (congrArg Prod.snd (run_updateGoal hgoal hfence rfl))))

/-- What holds until `save_step` writes anything. -/
structure Underway (token : Int) (s₀ : State) (durable : Option DurableStep) (s : State) :
    Prop where
  hasJob : ∃ job, s.job = some job ∧ job.status = .running ∧ job.durableStep = durable ∧
    fenceClause job.processingFence token = true
  hasGoal : ∃ goal, s.goal = some goal ∧ fenceClause goal.processingFence token = true ∧
    s₀.goal.map (fun goal => (goal.shown, goal.id, goal.ownerId)) =
      some (goal.shown, goal.id, goal.ownerId)
  messages : s.messages = s₀.messages
  versions : s.versions = s₀.versions

theorem Underway.record (h : Underway token s₀ durable s) (entry : Entry) :
    Underway token s₀ durable (s.record entry) := ⟨h.hasJob, h.hasGoal, h.messages, h.versions⟩

theorem fenceValue_le {fence : Option Int} (hpositive : 0 < token)
    (h : fenceClause fence token = true) : ¬ fenceValue fence > token := by
  cases fence with
  | none => exact Int.not_lt.mpr (Int.le_of_lt hpositive)
  | some fence =>
    have hle : fence ≤ token := by simpa [fenceClause] using h
    exact Int.not_lt.mpr hle

theorem yields_rejectIfNewer {δ : Type} {probe : Command (Option δ)} {fence : δ → Option Int}
    {found : Option δ} (hother : write.is probe = false)
    (hrun : run builders token probe s = (.ok found, s))
    (holder : ∀ doc, found = some doc → ¬ fenceValue (fence doc) > token) :
    Yields builders token write applied (rejectIfNewer probe fence token) s (.ok ()) s := by
  refine yields_bind (yields_send hother hrun) ?_
  cases found with
  | none => rfl
  | some doc =>
    dsimp only
    rw [if_neg (holder doc rfl)]
    rfl

theorem Underway.touch {update : GoalUpdate} (hpositive : 0 < token)
    (h : Underway token s₀ durable s) (hupdate : ∀ step, update ≠ .step step) :
    ∃ s', Yields builders token write applied (updateGoal update token) s (.ok ()) s' ∧
      Underway token s₀ durable s' := by
  obtain ⟨goal, hgoal, hfence, hsame⟩ := h.hasGoal
  have hother : write.is (.updateGoal update token) = false := by
    cases update with
    | step step => exact absurd rfl (hupdate step)
    | patch draft => rfl
    | evidence operationId => rfl
  cases haccepts : goal.accepts update with
  | true =>
    refine ⟨_, yields_updateGoal hgoal hfence haccepts hother, h.hasJob, ⟨_, rfl, ?_, ?_⟩,
      h.messages, h.versions⟩
    · simp [fenceClause]
    · rw [hsame]
      cases update with
      | step step => exact absurd rfl (hupdate step)
      | patch draft => rfl
      | evidence operationId => rfl
  | false =>
    -- an operation that the goal has already counted
    refine ⟨s, ?_, h⟩
    have hrun : run builders token (.updateGoal update token) s = (.ok 0, s) := by
      simp only [run, hgoal, hfence, haccepts]
      rfl
    refine yields_bind (yields_send rfl rfl) (yields_bind (yields_send hother hrun) ?_)
    have hfind : run builders token .findGoal s = (.ok s.goal, s) := rfl
    refine yields_rejectIfNewer rfl hfind fun doc hdoc => ?_
    rw [hgoal] at hdoc
    obtain rfl := Option.some.inj hdoc
    exact fenceValue_le hpositive hfence

theorem yields_storeEvidence :
    Yields builders token write applied Attempt.storeEvidence s (.ok ()) s :=
  yields_attempt (yields_send rfl rfl) rfl

theorem yields_storeFindings {findings : List String} :
    Yields builders token write applied (Attempt.storeFindings findings) s (.ok ()) s := by
  induction findings with
  | nil => rfl
  | cons finding findings ih =>
    unfold Attempt.storeFindings
    split
    · exact yields_bind yields_storeEvidence ih
    · exact ih

def ComesTo (builders : Builders) (token : Int) (write : StepWrite) (applied : Bool)
    (prog : Working α) (s : State) (prog' : Working α) (s' : State) : Prop :=
  prog.run.eval (answerRaising builders token write applied) s =
    prog'.run.eval (answerRaising builders token write applied) s'

theorem comesTo_bind {prog : Working α} {f : α → Working β} {prog' : Working β} {value : α}
    (h : Yields builders token write applied prog s (.ok value) s₁)
    (hnext : ComesTo builders token write applied (f value) s₁ prog' s') :
    ComesTo builders token write applied (prog >>= f) s prog' s' := (eval_bind_ok h).trans hnext

/-- A program comes to `save_step` before anything is written that `save_step` writes. -/
def Saves (builders : Builders) (attempt : Attempt) (write : StepWrite) (applied : Bool)
    (s₀ : State) (step : DurableStep) (prog : Working Unit) (s : State) : Prop :=
  ∃ s', Underway attempt.token s₀ none s' ∧ ComesTo builders attempt.token write applied prog s
    (saveStep attempt.jobId step attempt.token) s'

theorem Underway.saves (h : Underway attempt.token s₀ none s) :
    Saves builders attempt write applied s₀ step (saveStep attempt.jobId step attempt.token) s :=
  ⟨s, h, rfl⟩

theorem saves_bind {prog : Working α} {f : α → Working Unit} {value : α}
    (h : Yields builders attempt.token write applied prog s (.ok value) s₁)
    (hnext : Saves builders attempt write applied s₀ step (f value) s₁) :
    Saves builders attempt write applied s₀ step (prog >>= f) s := by
  obtain ⟨s', hunderway, hcomes⟩ := hnext
  exact ⟨s', hunderway, comesTo_bind h hcomes⟩

theorem saves_clarify (h : Underway attempt.token s₀ none s) :
    Saves builders attempt write applied s₀ (clarifyStep (builders .clarify))
      (attempt.clarify goal) s :=
  saves_bind (yields_send rfl rfl) (saves_bind (yields_send rfl rfl) (h.record _).saves)

theorem saves_baseline (hpositive : 0 < attempt.token) (h : Underway attempt.token s₀ none s) :
    Saves builders attempt write applied s₀ (baselineStep (builders .baseline))
      (attempt.baseline goal) s := by
  refine saves_bind (yields_send rfl rfl) (saves_bind yields_storeFindings ?_)
  have hcalled := h.record (.called attempt.token)
  dsimp only
  split
  · have hcount : ∃ s', Yields builders attempt.token write applied
        (attempt.countEvidence "baseline") (s.record (.called attempt.token)) (.ok ()) s' ∧
          Underway attempt.token s₀ none s' := hcalled.touch hpositive nofun
    obtain ⟨s', hyields, h'⟩ := hcount
    exact saves_bind hyields h'.saves
  · exact hcalled.saves

theorem saves_plan (hpositive : 0 < attempt.token)
    (hmilestones : (builders .plan : PlanBuilt).milestones ≠ [])
    (hdays : (builders .plan : PlanBuilt).days ≠ []) (h : Underway attempt.token s₀ none s) :
    Saves builders attempt write applied s₀ (planStep (builders .plan) goal)
      (attempt.plan goal) s := by
  refine saves_bind (yields_send rfl rfl) ?_
  have hpatch : ∃ s', Yields builders attempt.token write applied
      (updateGoal (.patch [(.pipelineState, "RESEARCHING")]) attempt.token) s (.ok ()) s' ∧
        Underway attempt.token s₀ none s' := h.touch hpositive nofun
  obtain ⟨s', hyields, h'⟩ := hpatch
  refine saves_bind hyields (saves_bind (yields_send rfl rfl) ?_)
  dsimp only
  rw [if_neg]
  · exact (h'.record _).saves
  · rw [Bool.or_eq_true, List.isEmpty_iff, List.isEmpty_iff]
    exact fun hempty => hempty.elim hmilestones hdays

theorem saves_work {write : StepWrite} {applied : Bool} {goal : Goal}
    (hpositive : 0 < attempt.token) (hbuilds : attempt.Builds builders)
    (hdurable : job.durableStep = none) (h : Underway attempt.token s₀ none s) :
    Saves builders attempt write applied s₀ (attempt.step builders job goal)
      (attempt.work goal) s := by
  obtain ⟨hsaves, hplan⟩ := hbuilds
  unfold Attempt.work Attempt.step
  rw [hdurable]
  cases htype : attempt.jobType with
  | evidence => rw [htype] at hsaves; cases hsaves
  | review => rw [htype] at hsaves; cases hsaves
  | clarify => exact saves_clarify h
  | baseline => exact saves_baseline hpositive h
  | plan =>
    obtain ⟨hmilestones, hdays⟩ := hplan (.inl htype)
    exact saves_plan hpositive hmilestones hdays h
  | research =>
    obtain ⟨hmilestones, hdays⟩ := hplan (.inr htype)
    exact saves_plan hpositive hmilestones hdays h

theorem Underway.of_claimed {owner : String} {attempts : Nat} (h : Unfenced attempt s job goal) :
    Underway attempt.token s job.durableStep (s.setJob { job with
      status := .running, processingOwner := owner, processingFence := some attempt.token,
      processingAttempt := attempts }) := by
  refine ⟨⟨_, rfl, rfl, rfl, by simp [fenceClause]⟩, ⟨goal, h.hasGoal, h.goalFence, ?_⟩, rfl, rfl⟩
  rw [h.hasGoal]
  rfl

theorem yields_claim {builders : Builders} {write : StepWrite} {applied : Bool}
    (h : Unfenced attempt s job goal) :
    ∃ outcome s', Yields builders attempt.token write applied (claim attempt.owner attempt.token) s
        (.ok outcome) s' ∧
      (outcome = .claimed job ∨ outcome = .owned job ∨ outcome = .recovered job) ∧
      s'.goal = s.goal ∧ Underway attempt.token s job.durableStep s' := by
  have hjob := h.hasJob
  rcases h.claims with hqueued | ⟨hrunning, hle⟩
  · have hstart : run builders attempt.token (.startJob attempt.owner attempt.token) s =
        (.ok (some job), s.setJob { job with
          status := .running, processingOwner := attempt.owner,
          processingFence := some attempt.token,
          processingAttempt := job.processingAttempt + 1 }) := by
      simp only [run, hjob, hqueued, if_true]
    exact ⟨.claimed job, _, yields_bind (yields_send rfl rfl)
      (yields_bind (yields_send rfl hstart) rfl), .inl rfl, rfl, .of_claimed h⟩
  · have hstart : run builders attempt.token (.startJob attempt.owner attempt.token) s =
        (.ok none, s) := by
      simp [run, hjob, hrunning]
    have hfind : run builders attempt.token .findJob s = (.ok (some job), s) := by
      simp only [run, hjob]
    have hother : ¬ fenceValue job.processingFence > attempt.token := Int.not_lt.mpr hle
    by_cases hmine : fenceValue job.processingFence = attempt.token
    · refine ⟨.owned job, s, yields_bind (yields_send rfl rfl) (yields_bind (yields_send rfl hstart)
        (yields_bind (yields_send rfl hfind) ?_)), .inr (.inl rfl), rfl,
        ⟨job, hjob, hrunning, rfl, ?_⟩, ⟨goal, h.hasGoal, h.goalFence, by rw [h.hasGoal]; rfl⟩,
        rfl, rfl⟩
      · dsimp only
        rw [hrunning, if_neg hother, if_pos hmine]
        rfl
      cases hfence : job.processingFence with
      | none => rfl
      | some fence =>
        rw [hfence, fenceValue, Option.getD_some] at hmine
        simp [fenceClause, hmine]
    · have hseen : seenClause job.processingFence job.processingFence = true := by
        unfold seenClause
        split <;> simp_all
      have hrecover : run builders attempt.token
          (.recoverJob job.processingFence attempt.owner attempt.token) s =
          (.ok (some job), s.setJob { job with
            status := .running, processingOwner := attempt.owner,
            processingFence := some attempt.token,
            processingAttempt := job.processingAttempt + 1 }) := by
        simp [run, hjob, hrunning, hseen]
      refine ⟨.recovered job, s.setJob { job with
          status := .running, processingOwner := attempt.owner,
          processingFence := some attempt.token,
          processingAttempt := job.processingAttempt + 1 }, yields_bind (yields_send rfl rfl)
        (yields_bind (yields_send rfl hstart) (yields_bind (yields_send rfl hfind) ?_)),
        .inr (.inr rfl), rfl, .of_claimed h⟩
      dsimp only
      rw [hrunning, if_neg hother, if_neg hmine]
      exact yields_bind (yields_send rfl hrecover) rfl

theorem run_updateVersion_some (hfound : s.version? (planVersionNumber plan) = some row)
    (hclause : fenceClause row.processingFence attempt.token = true) :
    run builders attempt.token (.updateVersion
        (planVersion goal.ownerId goal.id attempt.jobId plan) attempt.token) s =
      (.ok 1, s.putVersion (attempt.versionRow goal plan)) := by
  simp only [run, planVersion, hfound, hclause, if_true]
  rfl

theorem run_updateVersion_none (hfound : s.version? (planVersionNumber plan) = none) :
    run builders attempt.token (.updateVersion
        (planVersion goal.ownerId goal.id attempt.jobId plan) attempt.token) s = (.ok 0, s) := by
  simp only [run, planVersion, hfound]

theorem yields_savePlanVersion
    (hrows : ∀ row ∈ s.versions, fenceClause row.processingFence attempt.token = true) :
    Yields builders attempt.token .ready applied
      (savePlanVersion goal attempt.jobId plan attempt.token) s (.ok ())
      (s.putVersion (attempt.versionRow goal plan)) := by
  have hupsert : Yields builders attempt.token .ready applied
      (upsertVersion (planVersion goal.ownerId goal.id attempt.jobId plan) attempt.token) s (.ok ())
      (s.putVersion (attempt.versionRow goal plan)) := by
    refine yields_bind (yields_send rfl rfl) ?_
    cases hfound : s.version? (planVersionNumber plan) with
    | some row =>
      have hclause := hrows row (Keyed.find?_eq_some hfound).1
      exact yields_bind (yields_send rfl (run_updateVersion_some hfound hclause)) rfl
    | none =>
      refine yields_bind (yields_send rfl (run_updateVersion_none hfound)) ?_
      refine yields_bind (yields_rejectIfNewer rfl rfl fun row hrow => ?_)
        (yields_attempt (yields_send rfl rfl) rfl)
      exact absurd (hfound.symm.trans hrow) nofun
  exact yields_attempt hupsert rfl

theorem raises_updateVersion
    (hrows : ∀ row ∈ s.versions, fenceClause row.processingFence attempt.token = true) :
    Yields builders attempt.token .versionUpdate applied
      (savePlanVersion goal attempt.jobId plan attempt.token) s (.error .exception)
      (if applied && (s.version? (planVersionNumber plan)).isSome
        then s.putVersion (attempt.versionRow goal plan) else s) := by
  have hupsert : Yields builders attempt.token .versionUpdate applied
      (upsertVersion (planVersion goal.ownerId goal.id attempt.jobId plan) attempt.token) s
      (.error .exception) (if applied && (s.version? (planVersionNumber plan)).isSome
        then s.putVersion (attempt.versionRow goal plan) else s) := by
    refine yields_bind (yields_send rfl rfl) (yields_error ?_)
    cases hfound : s.version? (planVersionNumber plan) with
    | some row =>
      have hclause := hrows row (Keyed.find?_eq_some hfound).1
      rw [Option.isSome_some, Bool.and_true]
      exact yields_raise rfl (congrArg Prod.snd (run_updateVersion_some hfound hclause))
    | none =>
      rw [Option.isSome_none, Bool.and_false, if_neg Bool.false_ne_true]
      have hraise : Yields builders attempt.token .versionUpdate applied
          (send (.updateVersion (planVersion goal.ownerId goal.id attempt.jobId plan)
            attempt.token)) s (.error .exception) (if applied then s else s) :=
        yields_raise rfl (congrArg Prod.snd (run_updateVersion_none hfound))
      rwa [ite_self] at hraise
  exact yields_attempt hupsert rfl

theorem raises_upsertVersion (hfound : s.version? (planVersionNumber plan) = none) :
    Yields builders attempt.token .versionUpsert applied
      (savePlanVersion goal attempt.jobId plan attempt.token) s (.error .exception)
      (if applied then s.putVersion (attempt.versionRow goal plan) else s) := by
  have hupsert : Yields builders attempt.token .versionUpsert applied
      (upsertVersion (planVersion goal.ownerId goal.id attempt.jobId plan) attempt.token) s
      (.error .exception) (if applied then s.putVersion (attempt.versionRow goal plan) else s) := by
    refine yields_bind (yields_send rfl rfl) ?_
    refine yields_bind (yields_send rfl (run_updateVersion_none hfound)) ?_
    refine yields_bind (yields_rejectIfNewer rfl rfl fun row hrow => ?_)
      (yields_attempt (yields_raise rfl rfl) rfl)
    exact absurd (hfound.symm.trans hrow) nofun
  exact yields_attempt hupsert rfl

structure Written (attempt : Attempt) (s₀ : State) (goal : Goal) (step : DurableStep)
    (status : JobStatus) (stored : Bool) (inGoal inMessages inVersions : Bool) (s : State) :
    Prop where
  hasJob : ∃ job, s.job = some job ∧ fenceClause job.processingFence attempt.token = true ∧
    job.status = status ∧ (stored = true → job.durableStep.isSome = true)
  hasGoal : ∃ goal', s.goal = some goal' ∧
    fenceClause goal'.processingFence attempt.token = true ∧
    goal'.shown = (if inGoal then (goal.update (.step step)).shown else goal.shown) ∧
    goal'.id = goal.id ∧ goal'.ownerId = goal.ownerId
  messages : s.messages = if inMessages then
    Keyed.replaceOrAppend Message.key (stepMessage goal attempt.jobId step) s₀.messages
    else s₀.messages
  versions : s.versions =
    match step.plan with
    | some plan =>
      if inVersions then
        Keyed.replaceOrAppend PlanVersion.version (attempt.versionRow goal plan) s₀.versions
      else s₀.versions
    | none => s₀.versions

section Written

variable {status : JobStatus} {stored inGoal inMessages inVersions : Bool}

theorem Underway.written (hs₀ : s₀.goal = some goal) (h : Underway attempt.token s₀ durable s) :
    Written attempt s₀ goal step .running durable.isSome false false false s := by
  obtain ⟨job, hjob, hrunning, hdurable, hclause⟩ := h.hasJob
  obtain ⟨goal', hgoal, hfence, hsame⟩ := h.hasGoal
  rw [hs₀] at hsame
  simp only [Option.map_some, Option.some.injEq, Prod.mk.injEq] at hsame
  refine ⟨⟨job, hjob, hclause, hrunning, fun hsome => hdurable ▸ hsome⟩,
    ⟨goal', hgoal, hfence, hsame.1.symm, hsame.2.1.symm, hsame.2.2.symm⟩, h.messages, ?_⟩
  rw [h.versions]
  cases step.plan <;> rfl

theorem fenceClause_self : fenceClause (some token) token = true := by simp [fenceClause]

theorem Written.store (durable : DurableStep)
    (h : Written attempt s₀ goal step status stored inGoal inMessages inVersions s)
    (hjob : s.job = some job) :
    Written attempt s₀ goal step status stored inGoal inMessages inVersions
      (s.updateJob attempt.token (.durableStep durable) job) := by
  obtain ⟨job', hjob', -, hstatus, -⟩ := h.hasJob
  rw [hjob] at hjob'
  obtain rfl := Option.some.inj hjob'
  exact ⟨⟨_, rfl, fenceClause_self, hstatus, fun _ => rfl⟩, h.hasGoal, h.messages, h.versions⟩

theorem Written.finish {model : String}
    (h : Written attempt s₀ goal step status stored inGoal inMessages inVersions s)
    (hjob : s.job = some job) :
    Written attempt s₀ goal step .ready stored inGoal inMessages inVersions
      (s.updateJob attempt.token (.ready model) job) := by
  obtain ⟨job', hjob', -, -, hstored⟩ := h.hasJob
  rw [hjob] at hjob'
  obtain rfl := Option.some.inj hjob'
  exact ⟨⟨_, rfl, fenceClause_self, rfl, hstored⟩, h.hasGoal, h.messages, h.versions⟩

theorem Written.putGoal {goal' : Goal}
    (h : Written attempt s₀ goal step status stored false inMessages inVersions s)
    (hgoal : s.goal = some goal') :
    Written attempt s₀ goal step status stored true inMessages inVersions
      (s.updateGoal attempt.token (.step step) goal') := by
  obtain ⟨goal'', hgoal'', -, hshown, hid, howner⟩ := h.hasGoal
  rw [hgoal] at hgoal''
  obtain rfl := Option.some.inj hgoal''
  refine ⟨h.hasJob, ⟨_, rfl, fenceClause_self, ?_, hid, howner⟩, h.messages, h.versions⟩
  simp only [Goal.shown, Prod.mk.injEq, Bool.false_eq_true, if_false] at hshown
  simp [Goal.update, Goal.shown, hshown.2.2]

theorem Written.putMessage
    (h : Written attempt s₀ goal step status stored inGoal false inVersions s) :
    Written attempt s₀ goal step status stored inGoal true inVersions
      (s.putMessage (stepMessage goal attempt.jobId step)) := by
  have hmessages : s.messages = s₀.messages := h.messages
  refine ⟨h.hasJob, h.hasGoal, ?_, h.versions⟩
  rw [if_pos rfl, ← hmessages]
  rfl

theorem Written.putVersion (hplan : step.plan = some plan)
    (h : Written attempt s₀ goal step status stored inGoal inMessages false s) :
    Written attempt s₀ goal step status stored inGoal inMessages true
      (s.putVersion (attempt.versionRow goal plan)) := by
  refine ⟨h.hasJob, h.hasGoal, h.messages, ?_⟩
  have hversions := h.versions
  rw [hplan] at hversions ⊢
  have hsame : s.versions = s₀.versions := hversions
  dsimp only
  rw [if_pos rfl, ← hsame]
  rfl

theorem Written.noVersion (hplan : step.plan = none)
    (h : Written attempt s₀ goal step status stored inGoal inMessages false s) :
    Written attempt s₀ goal step status stored inGoal inMessages true s := by
  refine ⟨h.hasJob, h.hasGoal, h.messages, ?_⟩
  have hversions := h.versions
  rw [hplan] at hversions ⊢
  exact hversions

end Written

/-- The step, as `save_step` stores it on the job. -/
def DurableStep.trimmed (step : DurableStep) : DurableStep :=
  { step with assistantText := Text.take 4000 step.assistantText }

abbrev Raised (attempt : Attempt) (s₀ : State) (goal : Goal) (stored : Bool) (step : DurableStep)
    (write : StepWrite) (applied : Bool) : State → Prop :=
  Written attempt s₀ goal step (if write = .ready ∧ applied = true then .ready else .running) stored
    (write.writesGoal applied) (write.writesMessage applied)
    (match step.plan with
      | some plan => write.writesVersion applied (s₀.version? (planVersionNumber plan)).isSome
      | none => true)

theorem Written.unversioned {status : JobStatus} {stored inGoal inMessages : Bool}
    {written : Plan → Bool} (hwritten : ∀ plan, step.plan = some plan → written plan = false)
    (h : Written attempt s₀ goal step status stored inGoal inMessages false s) :
    Written attempt s₀ goal step status stored inGoal inMessages
      (match step.plan with
        | some plan => written plan
        | none => true) s := by
  cases hplan : step.plan with
  | none => exact h.noVersion hplan
  | some plan =>
    dsimp only
    rw [hwritten plan hplan]
    exact h

section Save

variable {stored : Bool}

def saveEnd (goal : Goal) (jobId : String) (step : DurableStep) (token : Int) : Working Unit := do
  match step.plan with
  | some plan => savePlanVersion goal jobId plan token
  | none => pure ()
  updateJob (.ready step.model) token

theorem yields_saveEnd_some {outcome : Except Failure Unit} (hplan : step.plan = some plan)
    (h : Yields builders attempt.token write applied (do
      savePlanVersion goal attempt.jobId plan attempt.token
      updateJob (.ready step.model) attempt.token) s outcome s') :
    Yields builders attempt.token write applied
      (saveEnd goal attempt.jobId step attempt.token) s outcome s' := by
  unfold saveEnd
  rw [hplan]
  exact h

theorem yields_saveStep {goal' : Goal} {outcome : Except Failure Unit} (hgoal : s.goal = some goal')
    (hrest : Yields builders token write applied (do
      updateJob (.durableStep step.trimmed) token
      updateGoal (.step step) token
      send (.upsertMessage (stepMessage goal' attempt.jobId step))
      saveEnd goal' attempt.jobId step token) s outcome s') :
    Yields builders token write applied (saveStep attempt.jobId step token) s outcome s' := by
  refine yields_bind (yields_send rfl rfl) (yields_bind (yields_send rfl rfl) ?_)
  rw [hgoal]
  exact hrest

theorem stepMessage_congr {goal' : Goal} {jobId : String} (howner : goal'.ownerId = goal.ownerId) :
    stepMessage goal' jobId step = stepMessage goal jobId step := by
  unfold stepMessage
  rw [howner]

theorem saveEnd_congr {goal' : Goal} {jobId : String} (hid : goal'.id = goal.id)
    (howner : goal'.ownerId = goal.ownerId) :
    saveEnd goal' jobId step token = saveEnd goal jobId step token := by
  unfold saveEnd savePlanVersion
  rw [hid, howner]

theorem raises_saveStep {builders : Builders} {applied : Bool} (hissued : write.Issued s₀ step)
    (hrows : ∀ row ∈ s₀.versions, fenceClause row.processingFence attempt.token = true)
    (h : Written attempt s₀ goal step .running stored false false false s) :
    ∃ s', Yields builders attempt.token write applied
        (saveStep attempt.jobId step attempt.token) s (.error .exception) s' ∧
      Raised attempt s₀ goal stored step write applied s' := by
  obtain ⟨job, hjob, hclause, -⟩ := h.hasJob
  obtain ⟨goal', hgoal, hfence, -, hid, howner⟩ := h.hasGoal
  have h₁ := h.store step.trimmed hjob
  have h₂ := h₁.putGoal hgoal
  have h₃ := h₂.putMessage
  have hstart : ∀ outcome s', Yields builders attempt.token write applied (do
      updateJob (.durableStep step.trimmed) attempt.token
      updateGoal (.step step) attempt.token
      send (.upsertMessage (stepMessage goal attempt.jobId step))
      saveEnd goal attempt.jobId step attempt.token) s outcome s' →
      Yields builders attempt.token write applied
        (saveStep attempt.jobId step attempt.token) s outcome s' := by
    intro outcome s' hrest
    refine yields_saveStep hgoal ?_
    rw [stepMessage_congr howner, saveEnd_congr hid howner]
    exact hrest
  -- the state before the version is written
  obtain ⟨s₃, hwritten₃, hthird⟩ : ∃ s₃,
      Written attempt s₀ goal step .running stored true true false s₃ ∧
      ∀ outcome s', Yields builders attempt.token write applied
          (saveEnd goal attempt.jobId step attempt.token) s₃ outcome s' →
        write ≠ .durableStep → write ≠ .goal → write ≠ .message →
        Yields builders attempt.token write applied
          (saveStep attempt.jobId step attempt.token) s outcome s' := by
    refine ⟨_, h₃, fun outcome s' hrest hdurable hgoals hmessage => hstart _ _ ?_⟩
    exact yields_bind (yields_updateJob hjob hclause (by simp [StepWrite.is, hdurable]))
      (yields_bind (yields_updateGoal hgoal hfence rfl (by simp [StepWrite.is, hgoals]))
        (yields_bind (yields_send (by simp [StepWrite.is, hmessage]) rfl) hrest))
  have hversions : s₃.versions = s₀.versions := by
    have hsame := hwritten₃.versions
    cases hplan : step.plan with
    | none => rw [hplan] at hsame; exact hsame
    | some plan => rw [hplan] at hsame; exact hsame
  have hrows₃ : ∀ row ∈ s₃.versions, fenceClause row.processingFence attempt.token = true :=
    fun row hrow => hrows row (hversions ▸ hrow)
  cases write with
  | durableStep =>
    refine ⟨_, hstart _ _ (yields_error (yields_updateJob_raise hjob hclause rfl)), ?_⟩
    refine Written.unversioned (fun _ _ => rfl) ?_
    cases applied with
    | false => exact h
    | true => exact h₁
  | goal =>
    refine ⟨_, hstart _ _ (yields_bind (yields_updateJob hjob hclause rfl)
      (yields_error (yields_updateGoal_raise hgoal hfence))), ?_⟩
    refine Written.unversioned (fun _ _ => rfl) ?_
    cases applied with
    | false => exact h₁
    | true => exact h₂
  | message =>
    refine ⟨_, hstart _ _ (yields_bind (yields_updateJob hjob hclause rfl)
      (yields_bind (yields_updateGoal hgoal hfence rfl rfl)
        (yields_error (yields_raise rfl rfl)))), ?_⟩
    refine Written.unversioned (fun _ _ => rfl) ?_
    cases applied with
    | false => exact h₂
    | true => exact h₃
  | versionUpdate =>
    obtain ⟨plan, hplan⟩ := Option.isSome_iff_exists.mp hissued
    refine ⟨_, hthird _ _ (yields_saveEnd_some hplan (yields_error (raises_updateVersion hrows₃)))
      nofun nofun nofun, ?_⟩
    have hfind : s₃.version? (planVersionNumber plan) = s₀.version? (planVersionNumber plan) := by
      rw [State.version?, hversions, State.version?]
    unfold Raised
    rw [hplan, hfind]
    dsimp only [StepWrite.writesVersion]
    cases hwritten : applied && (s₀.version? (planVersionNumber plan)).isSome with
    | false => exact hwritten₃
    | true => exact hwritten₃.putVersion hplan
  | versionUpsert =>
    obtain ⟨plan, hplan, hfound⟩ := hissued
    have hnone : s₃.version? (planVersionNumber plan) = none := by
      rw [State.version?, hversions]
      exact hfound
    refine ⟨_, hthird _ _ (yields_saveEnd_some hplan (yields_error (raises_upsertVersion hnone)))
      nofun nofun nofun, ?_⟩
    unfold Raised
    rw [hplan]
    dsimp only [StepWrite.writesVersion]
    cases applied with
    | false => exact hwritten₃
    | true => exact hwritten₃.putVersion hplan
  | ready =>
    obtain ⟨job₃, hjob₃, hclause₃, -⟩ := hwritten₃.hasJob
    cases hplan : step.plan with
    | none =>
      have hraise : Yields builders attempt.token .ready applied
          (saveEnd goal attempt.jobId step attempt.token) s₃ (.error .exception)
          (if applied then s₃.updateJob attempt.token (.ready step.model) job₃ else s₃) := by
        unfold saveEnd
        rw [hplan]
        exact yields_updateJob_raise hjob₃ hclause₃ rfl
      refine ⟨_, hthird _ _ hraise nofun nofun nofun, ?_⟩
      unfold Raised
      rw [hplan]
      cases applied with
      | false => exact hwritten₃.noVersion hplan
      | true => exact (hwritten₃.noVersion hplan).finish hjob₃
    | some plan =>
      refine ⟨_, hthird _ _ (yields_saveEnd_some hplan (yields_bind (yields_savePlanVersion hrows₃)
        (yields_updateJob_raise hjob₃ hclause₃ rfl))) nofun nofun nofun, ?_⟩
      unfold Raised
      rw [hplan]
      cases applied with
      | false => exact hwritten₃.putVersion hplan
      | true => exact (hwritten₃.putVersion hplan).finish hjob₃

end Save

theorem untouched_iff {stored : Bool} (hgoal : s₀.goal = some goal)
    (h : Raised attempt s₀ goal stored step write applied s) :
    Untouched s₀ s ↔ write.Spares applied attempt s₀ goal step := by
  obtain ⟨goal', hgoal', -, hshown, -⟩ := h.hasGoal
  have hgoals : s.goal.map Goal.shown = s₀.goal.map Goal.shown ↔
      (write.writesGoal applied = true → (goal.update (.step step)).shown = goal.shown) := by
    rw [hgoal, hgoal', Option.map_some, Option.map_some, Option.some.injEq, hshown]
    cases write.writesGoal applied <;> simp
  have hmessages : s.messages = s₀.messages ↔ (write.writesMessage applied = true →
      Keyed.find? Message.key (stepMessage goal attempt.jobId step).key s₀.messages =
        some (stepMessage goal attempt.jobId step)) := by
    rw [h.messages]
    cases write.writesMessage applied with
    | false => simp
    | true => simpa using Keyed.replaceOrAppend_eq_self_iff
  have hversions : s.versions = s₀.versions ↔ ∀ plan, step.plan = some plan →
      write.writesVersion applied (s₀.version? (planVersionNumber plan)).isSome = true →
        s₀.version? (planVersionNumber plan) = some (attempt.versionRow goal plan) := by
    rw [h.versions]
    cases hplan : step.plan with
    | none => simp
    | some plan =>
      have hself : Keyed.replaceOrAppend PlanVersion.version (attempt.versionRow goal plan)
          s₀.versions = s₀.versions ↔
            s₀.version? (planVersionNumber plan) = some (attempt.versionRow goal plan) :=
        Keyed.replaceOrAppend_eq_self_iff
      simp only [Option.some.injEq, forall_eq']
      by_cases hwritten :
          write.writesVersion applied (s₀.version? (planVersionNumber plan)).isSome = true
      · rw [if_pos hwritten, hself]
        exact ⟨fun hfound _ => hfound, fun hfound => hfound hwritten⟩
      · rw [if_neg hwritten]
        exact ⟨fun _ hwrites => absurd hwrites hwritten, fun _ => rfl⟩
  constructor
  · rintro ⟨hg, hm, hv⟩
    exact ⟨hgoals.mp hg, hmessages.mp hm, hversions.mp hv⟩
  · rintro ⟨hg, hm, hv⟩
    exact ⟨hgoals.mpr hg, hmessages.mpr hm, hversions.mpr hv⟩

theorem handle_eval {outcome : Claim}
    (hclaim : Yields builders attempt.token write applied (claim attempt.owner attempt.token) s
      (.ok outcome) s₁)
    (houtcome : outcome = .claimed job ∨ outcome = .owned job ∨ outcome = .recovered job)
    {result : Except Failure Unit}
    (hrest : Yields builders attempt.token write applied (attempt.proceed job) s₁ result s') :
    attempt.raising builders write applied s = s' := by
  have hhandle : Yields builders attempt.token write applied attempt.handle s result s' := by
    refine yields_bind hclaim ?_
    rcases houtcome with rfl | rfl | rfl
    · exact hrest
    · exact hrest
    · exact hrest
  exact congrArg Prod.snd hhandle

theorem resumed_raising (applied : Bool) (h : Unfenced attempt s job goal)
    (hdurable : job.durableStep.isSome = true)
    (hissued : write.Issued s (attempt.step builders job goal)) :
    Raised attempt s goal true (attempt.step builders job goal) write applied
      (attempt.raising builders write applied s) := by
  obtain ⟨outcome, s₁, hclaim, houtcome, -, hunderway⟩ := yields_claim h
  obtain ⟨s', hsave, hraised⟩ := raises_saveStep hissued h.versions
    ((hunderway.record (.passed attempt.token)).written h.hasGoal)
  rw [hdurable] at hraised
  obtain ⟨stored, hstored⟩ := Option.isSome_iff_exists.mp hdurable
  have hproceed : Yields builders attempt.token write applied (attempt.proceed job) s₁
      (.error .exception) s' := by
    refine yields_bind (yields_send rfl rfl) ?_
    unfold Attempt.step at hsave
    rw [hstored] at hsave ⊢
    exact hsave
  rw [handle_eval hclaim houtcome hproceed]
  exact hraised

theorem fresh_raising {applied : Bool} (h : Unfenced attempt s job goal)
    (hdurable : job.durableStep = none) (hbuilds : attempt.Builds builders)
    (hissued : write.Issued s (attempt.step builders job goal)) :
    ∃ raised failed, Raised attempt s goal false (attempt.step builders job goal) write applied
        raised ∧ failed.status = .failed ∧
      (attempt.raising builders write applied s) = raised.setJob failed := by
  obtain ⟨outcome, s₁, hclaim, houtcome, hgoal, hunderway⟩ := yields_claim h
  rw [hdurable] at hunderway
  obtain ⟨s₂, hunderway₂, hcomes⟩ := saves_work h.positive hbuilds hdurable
    (hunderway.record (.passed attempt.token))
  obtain ⟨raised, hsave, hraised⟩ := raises_saveStep hissued h.versions
    (hunderway₂.written h.hasGoal)
  obtain ⟨job', hjob', hclause, -⟩ := hraised.hasJob
  have hwork : Yields builders attempt.token write applied (attempt.work goal)
      (s₁.record (.passed attempt.token)) (.error .exception) raised := hcomes.trans hsave
  have hfail : Yields builders attempt.token write applied
      (fail "The goal step failed. Try again." attempt.token) raised (.ok ())
      (raised.updateJob attempt.token (.failed "The goal step failed. Try again.") job') :=
    yields_bind (yields_send rfl rfl) (yields_updateJob hjob' hclause rfl)
  have hproceed : Yields builders attempt.token write applied (attempt.proceed job) s₁ (.ok ())
      (raised.updateJob attempt.token (.failed "The goal step failed. Try again.") job') := by
    refine yields_bind (yields_send rfl rfl) ?_
    rw [hdurable]
    refine yields_bind (yields_send rfl rfl) ?_
    rw [show (s₁.record (.passed attempt.token)).goal = some goal from hgoal.trans h.hasGoal]
    exact yields_attempt hwork hfail
  exact ⟨raised, _, hraised, rfl, handle_eval hclaim houtcome hproceed⟩

/-- One write of `save_step` raises. The job is failed with the goal as it was, or running with its
step, exactly where the attempt had found the step stored and has not come to the end of it, or
where all that had been written was there before. -/
theorem never_half_applied_iff (h : Unfenced attempt s job goal)
    (hbuilds : job.durableStep = none → attempt.Builds builders)
    (hissued : write.Issued s (attempt.step builders job goal)) :
    NeverHalfApplied s (attempt.raising builders write applied s) ↔
      if job.durableStep.isSome = true then ¬ (write = .ready ∧ applied = true)
      else write.Spares applied attempt s goal (attempt.step builders job goal) := by
  split
  · next hdurable =>
    have hraised := resumed_raising applied h hdurable hissued
    obtain ⟨job', hjob', -, hstatus, hstored⟩ := hraised.hasJob
    constructor
    · rintro ⟨job'', hjob'', hholds⟩ hlast
      rw [hjob'] at hjob''
      obtain rfl := Option.some.inj hjob''
      rw [if_pos hlast] at hstatus
      rw [hstatus] at hholds
      exact absurd hholds.1 nofun
    · intro hnotLast
      rw [if_neg hnotLast] at hstatus
      refine ⟨job', hjob', ?_⟩
      rw [if_neg (by rw [hstatus]; exact nofun)]
      exact ⟨hstatus, hstored rfl⟩
  · next hdurable =>
    have hnone : job.durableStep = none := Option.not_isSome_iff_eq_none.mp hdurable
    obtain ⟨raised, failed, hraised, hfailed, hstate⟩ :=
      fresh_raising h hnone (hbuilds hnone) hissued
    rw [hstate, ← untouched_iff h.hasGoal hraised]
    constructor
    · rintro ⟨job', hjob', hholds⟩
      obtain rfl := Option.some.inj hjob'
      rw [if_pos hfailed] at hholds
      exact hholds
    · intro huntouched
      refine ⟨failed, rfl, ?_⟩
      rw [if_pos hfailed]
      exact huntouched

end Failures

def raisingAttempt : Attempt := ⟨"g", "j", .clarify, "w", 5⟩

def raisingJob : Job := { status := .queued, ownerId := "u" }

def raisingGoal : Goal := { id := "g", ownerId := "u", status := "DRAFT" }

def raisingStart : State where
  job := some raisingJob
  goal := some raisingGoal

theorem raising_unfenced : Unfenced raisingAttempt raisingStart raisingJob raisingGoal :=
  ⟨by decide, rfl, .inl rfl, rfl, rfl, fun _ hrow => absurd hrow List.not_mem_nil⟩

/-- The message cannot be written. The job is failed, and the goal shows the new step. -/
theorem message_raises_after_goal :
    Unfenced raisingAttempt raisingStart raisingJob raisingGoal ∧
      raisingAttempt.Builds sampleBuilders ∧
      ((raisingAttempt.raising sampleBuilders .message false raisingStart).job.map Job.status,
        (raisingAttempt.raising sampleBuilders .message false raisingStart).goal.map Goal.status) =
          (some .failed, some "CLARIFYING") ∧
      ¬ NeverHalfApplied raisingStart
        (raisingAttempt.raising sampleBuilders .message false raisingStart) := by
  refine ⟨raising_unfenced, ⟨rfl, fun hplan => ?_⟩, by decide +kernel, ?_⟩
  · rcases hplan with hplan | hplan <;> cases hplan
  · rintro ⟨job, hjob, hholds⟩
    have hfailed : (raisingAttempt.raising sampleBuilders .message false raisingStart).job.map
        Job.status = some .failed := by decide +kernel
    rw [hjob, Option.map_some, Option.some.injEq] at hfailed
    rw [if_pos hfailed] at hholds
    exact absurd hholds.1 (by decide +kernel)

theorem never_half_applied_iff_sample :
    NeverHalfApplied raisingStart
        (raisingAttempt.raising sampleBuilders .durableStep true raisingStart) ↔
      StepWrite.durableStep.Spares true raisingAttempt raisingStart raisingGoal
        (raisingAttempt.step sampleBuilders raisingJob raisingGoal) :=
  never_half_applied_iff raising_unfenced
    (fun _ => ⟨rfl, fun hplan => by rcases hplan with hplan | hplan <;> cases hplan⟩) trivial

end AiBuddy.Goals
