import AiBuddy.Goals.Proofs.Steps

/-!
# The durable step

The functions of an attempt, each with what the attempt knows before and after it, and what is
stored in any run of the attempts at a job.
-/

namespace AiBuddy.Goals

open Program

variable {step : DurableStep} {plan : Plan} {row : PlanVersion} {owner : String}

section Functions

variable {jobId : String} {jobType : JobType} {present passed : Bool} {token : Int}
  {stage stage' : Stage} {durable : DurableStep} {others : List Holding} {s s' : State}
  {α β : Type}

def Ends (token : Int) (passed : Bool) (post : Except Failure α → Stage → Prop)
    (outcome : Except Failure α) (holding : Holding) : Prop :=
  ∃ stage, holding = ⟨token, passed, stage⟩ ∧ post outcome stage

abbrev Keeps (jobId : String) (jobType : JobType) (present : Bool) (token : Int) (passed : Bool)
    (stage : Stage) (post : Except Failure α → Stage → Prop) (prog : Working α) : Prop :=
  Holds (under token goalSemantics) (Steps jobId jobType present) (Ends token passed post)
    ⟨token, passed, stage⟩ prog.run

def Anywhere (_ : Except Failure α) (_ : Stage) : Prop := True

def Comes (stage : Stage) (outcome : Except Failure α) (stage' : Stage) : Prop :=
  ∀ value, outcome = .ok value → stage' = stage

/-! ## Rules -/

theorem keeps_pure {post : Except Failure α → Stage → Prop} {value : α}
    (h : post (.ok value) stage) :
    Keeps jobId jobType present token passed stage post (pure value) := ⟨stage, rfl, h⟩

theorem keeps_throw {post : Except Failure α → Stage → Prop} (error : Failure)
    (h : post (.error error) stage) :
    Keeps jobId jobType present token passed stage post (throw error) := ⟨stage, rfl, h⟩

theorem keeps_bind {prog : Working α} {f : α → Working β} {middle : Except Failure α → Stage → Prop}
    {post : Except Failure β → Stage → Prop}
    (hprog : Keeps jobId jobType present token passed stage middle prog)
    (hok : ∀ value stage', middle (.ok value) stage' →
      Keeps jobId jobType present token passed stage' post (f value))
    (herror : ∀ error stage', middle (.error error) stage' → post (.error error) stage') :
    Keeps jobId jobType present token passed stage post (prog >>= f) := by
  refine Holds.raising_then _ hprog ?_ ?_
  · rintro value _ ⟨stage', rfl, hmiddle⟩
    exact hok value stage' hmiddle
  · rintro error _ ⟨stage', rfl, hmiddle⟩
    exact ⟨stage', rfl, herror error stage' hmiddle⟩

theorem keeps_comes {prog : Working α} {f : α → Working β} {post : Except Failure β → Stage → Prop}
    (hprog : Keeps jobId jobType present token passed stage (Comes stage') prog)
    (herror : ∀ error stage', post (.error error) stage')
    (hok : ∀ value, Keeps jobId jobType present token passed stage' post (f value)) :
    Keeps jobId jobType present token passed stage post (prog >>= f) :=
  keeps_bind hprog (fun value _ hcomes => hcomes value rfl ▸ hok value)
    fun error stage' _ => herror error stage'

theorem keeps_attempt {prog : Working α} {f : Except Failure α → Working β}
    {middle : Except Failure α → Stage → Prop} {post : Except Failure β → Stage → Prop}
    (hprog : Keeps jobId jobType present token passed stage middle prog)
    (hnext : ∀ outcome stage', middle outcome stage' →
      Keeps jobId jobType present token passed stage' post (f outcome)) :
    Keeps jobId jobType present token passed stage post (Program.attempt prog >>= f) := by
  refine Holds.attempt_then hprog ?_
  rintro outcome _ ⟨stage', rfl, hmiddle⟩
  exact hnext outcome stage' hmiddle

theorem keeps_send {command : Command α} {post : Except Failure α → Stage → Prop}
    (h : ∀ others s reply s', Steps jobId jobType present (⟨token, passed, stage⟩ :: others) s →
      Performed token command s reply s' →
        ∃ stage', Steps jobId jobType present (⟨token, passed, stage'⟩ :: others) s' ∧
          post reply stage') :
    Keeps jobId jobType present token passed stage post (send command) := by
  refine Holds.send fun others s reply s' hsteps hstep => ?_
  obtain ⟨stage', hsteps', hpost⟩ := h others s reply s' hsteps hstep
  refine ⟨⟨token, passed, stage'⟩, hsteps', stage', rfl, ?_⟩
  cases reply with
  | ok value => exact hpost
  | error error => exact hpost

theorem keeps_answered {command : Command α} {post : Except Failure α → Stage → Prop}
    (hperformed : ∀ s reply s', Performed token command s reply s' →
      ∃ builders, Answers .exception (run builders token command) s reply s')
    (hraised : ∀ stage', post (.error .exception) stage')
    (h : ∀ builders others s,
      Steps jobId jobType present (⟨token, passed, stage⟩ :: others) s →
        ∃ stage', Steps jobId jobType present (⟨token, passed, stage'⟩ :: others)
          (run builders token command s).2 ∧ post (run builders token command s).1 stage') :
    Keeps jobId jobType present token passed stage post (send command) := by
  refine keeps_send fun others s reply s' hsteps hstep => ?_
  obtain ⟨builders, hanswers⟩ := hperformed s reply s' hstep
  obtain ⟨stage', hsteps', hpost⟩ := h builders others s hsteps
  cases hanswers with
  | answered => exact ⟨stage', hsteps', hpost⟩
  | unsent => exact ⟨stage, hsteps, hraised stage⟩
  | unheard => exact ⟨stage', hsteps', hraised stage'⟩

/-! ## Reads -/

theorem keeps_lease :
    Keeps jobId jobType present token passed stage
      (fun outcome stage' => stage' = stage ∧ outcome ≠ .error .duplicateKey) (send .lease) := by
  refine keeps_send fun others s reply s' hsteps hstep => ?_
  obtain ⟨rfl, rfl | ⟨reason, rfl⟩⟩ := hstep
  · exact ⟨stage, hsteps, rfl, nofun⟩
  · exact ⟨stage, hsteps, rfl, nofun⟩

theorem keeps_read {command : Command α} {post : Except Failure α → Stage → Prop}
    (hpost : ∀ outcome, post outcome stage)
    (h : ∀ s reply s', Performed token command s reply s' → s' = s) :
    Keeps jobId jobType present token passed stage post (send command) :=
  keeps_send fun _ s reply s' hsteps hstep => ⟨stage, h s reply s' hstep ▸ hsteps, hpost reply⟩

theorem keeps_findMessages :
    Keeps jobId jobType present token passed stage (Comes stage) (send .findMessages) :=
  keeps_read (fun _ _ _ => rfl) fun _ _ _ ⟨_, hanswers⟩ => hanswers.state.elim id id

theorem keeps_findJob :
    Keeps jobId jobType present token passed stage (Comes stage) (send .findJob) :=
  keeps_read (fun _ _ _ => rfl) fun _ _ _ ⟨_, hanswers⟩ => hanswers.state.elim id id

theorem keeps_findGoal :
    Keeps jobId jobType present token passed stage
      (fun outcome stage' => stage' = stage ∧ ∀ goal, outcome = .ok (some goal) → present = true)
      (send .findGoal) := by
  refine keeps_send fun others s reply s' hsteps hstep => ?_
  obtain ⟨builders, hanswers⟩ := hstep
  obtain rfl : s' = s := (Answers.state hanswers).elim id id
  refine ⟨stage, hsteps, rfl, ?_⟩
  rintro goal rfl
  have hgoal : (some goal : Option Goal) = s'.goal := by
    have hrun := Answers.of_ok hanswers
    exact (Except.ok.inj (congrArg Prod.fst hrun)).symm
  rw [← hsteps.present, ← hgoal]
  rfl

/-! ## Writes of the job -/

theorem keeps_rejectIfNewer {δ : Type} {probe : Command (Option δ)} {fence : δ → Option Int}
    {post : Except Failure Unit → Stage → Prop}
    (hperformed : ∀ s reply s', Performed token probe s reply s' →
      ∃ builders, Answers .exception (run builders token probe) s reply s')
    (hraised : ∀ error stage', error ≠ .duplicateKey → post (.error error) stage')
    (h : ∀ builders others s, Steps jobId jobType present (⟨token, passed, stage⟩ :: others) s →
      (run builders token probe s).2 = s ∧ ∃ found, (run builders token probe s).1 = .ok found ∧
        ((∀ doc, found = some doc → fenceValue (fence doc) ≤ token) →
          ∃ stage', Steps jobId jobType present (⟨token, passed, stage'⟩ :: others) s ∧
            post (.ok ()) stage')) :
    Keeps jobId jobType present token passed stage post (rejectIfNewer probe fence token) := by
  have hprobe : Keeps jobId jobType present token passed stage
      (fun outcome stage' => outcome ≠ .error .duplicateKey ∧ ∀ found, outcome = .ok found →
        (∀ doc, found = some doc → fenceValue (fence doc) ≤ token) → post (.ok ()) stage')
      (send probe) := by
    refine keeps_answered hperformed (fun _ => ⟨nofun, nofun⟩) fun builders others s hsteps => ?_
    obtain ⟨hsame, found, hfound, hnext⟩ := h builders others s hsteps
    rw [hsame, hfound]
    by_cases hnewer : ∀ doc, found = some doc → fenceValue (fence doc) ≤ token
    · obtain ⟨stage', hsteps', hpost⟩ := hnext hnewer
      exact ⟨stage', hsteps', nofun, fun _ _ _ => hpost⟩
    · refine ⟨stage, hsteps, nofun, fun found' hsame' holder => absurd ?_ hnewer⟩
      obtain rfl := Except.ok.inj hsame'
      exact holder
  refine keeps_bind hprobe (fun found stage' hprobed => ?_) fun error stage' hprobed =>
    hraised error stage' fun hsame => hprobed.1 (congrArg _ hsame)
  have hmiddle := hprobed.2
  cases found with
  | none => exact keeps_pure (hmiddle none rfl nofun)
  | some doc =>
    dsimp only
    split
    · exact keeps_throw _ (hraised _ _ nofun)
    · next hle =>
      refine keeps_pure (hmiddle (some doc) rfl fun doc' hsame => ?_)
      obtain rfl := Option.some.inj hsame
      omega

theorem keeps_fencedUpdateOne {δ : Type} {update : Command Nat} {probe : Command (Option δ)}
    {fence : δ → Option Int} {post : Except Failure Unit → Stage → Prop}
    (hraised : ∀ error stage', post (.error error) stage')
    (hupdate : Keeps jobId jobType present token passed stage
      (fun outcome stage' => ∀ matched, outcome = .ok matched →
        if matched > 0 then post (.ok ()) stage'
        else Keeps jobId jobType present token passed stage' post (rejectIfNewer probe fence token))
      (send update)) :
    Keeps jobId jobType present token passed stage post
      (fencedUpdateOne update probe fence token) := by
  refine keeps_bind keeps_lease ?_ fun error stage' _ => hraised error stage'
  rintro - _ ⟨rfl, -⟩
  refine keeps_bind hupdate (fun matched stage' hmiddle => ?_) fun error stage' _ =>
    hraised error stage'
  have hnext := hmiddle matched rfl
  split at hnext
  · next hmatched =>
    rw [if_pos hmatched]
    exact keeps_pure hnext
  · next hmatched =>
    rw [if_neg hmatched]
    exact hnext

theorem keeps_storeStep {stored : DurableStep} (hstage : stage.MayStore jobType durable)
    (hsame : stored.Same durable) :
    Keeps jobId jobType present token true stage (Comes (.following durable .stored))
      (updateJob (.durableStep stored) token) := by
  refine keeps_fencedUpdateOne (fun _ _ _ => nofun) (keeps_answered (fun _ _ _ h => h)
    (fun _ _ => nofun) fun builders others s hsteps => ?_)
  obtain ⟨job, fence, hjob, hstatus, hfence⟩ := hsteps.claimed hstage
  simp only [run, hjob]
  split
  · next hclause =>
    refine ⟨_, hsteps.store hstage hjob hclause hsame, fun matched hmatched => ?_⟩
    obtain rfl := Except.ok.inj hmatched
    exact fun _ _ => rfl
  · next hclause =>
    have hlate : s.FencedFrom (token + 1) := by
      refine ⟨job, fence, hjob, hstatus, hfence, ?_⟩
      rw [hfence] at hclause
      simp [fenceClause] at hclause
      omega
    refine ⟨.late, hsteps.learn rfl rfl hlate, fun matched hmatched => ?_⟩
    obtain rfl := Except.ok.inj hmatched
    refine keeps_rejectIfNewer (fun _ _ _ h => h) (fun _ _ _ _ => nofun) fun builders others s
      hsteps => ?_
    obtain ⟨job, fence, hjob, -, hfence, hle⟩ := hsteps.knows _ List.mem_cons_self
    refine ⟨rfl, s.job, rfl, fun hold => absurd (hold job hjob) ?_⟩
    rw [hfence, fenceValue, Option.getD_some]
    dsimp only at hle
    omega

theorem keeps_settle {update : JobUpdate} (hupdate : ∀ stored, update ≠ .durableStep stored)
    (hready : ∀ others s job, Steps jobId jobType present (⟨token, passed, stage⟩ :: others) s →
      s.job = some job → (job.update update).status = .ready → jobType.savesStep = true →
        ∃ durable, s.Stores durable ∧ s.Applied jobId durable) :
    Keeps jobId jobType present token passed stage Anywhere (updateJob update token) := by
  refine keeps_fencedUpdateOne (fun _ _ => trivial) (keeps_answered (fun _ _ _ h => h)
    (fun _ _ => nofun) fun builders others s hsteps => ?_)
  have hreject : Keeps jobId jobType present token passed stage Anywhere
      (rejectIfNewer .findJob Job.processingFence token) :=
    keeps_rejectIfNewer (fun _ _ _ h => h) (fun _ _ _ => trivial) fun builders others s hsteps =>
      ⟨rfl, s.job, rfl, fun _ => ⟨stage, hsteps, trivial⟩⟩
  cases hjob : s.job with
  | none =>
    simp only [run, hjob]
    refine ⟨stage, hsteps, fun matched hmatched => ?_⟩
    obtain rfl := Except.ok.inj hmatched
    exact hreject
  | some job =>
    simp only [run, hjob]
    split
    · next hclause =>
      refine ⟨stage, hsteps.settle hupdate hjob hclause (hready others s job hsteps hjob), ?_⟩
      intro matched hmatched
      obtain rfl := Except.ok.inj hmatched
      exact trivial
    · refine ⟨stage, hsteps, fun matched hmatched => ?_⟩
      obtain rfl := Except.ok.inj hmatched
      exact hreject

theorem keeps_fail {message : String} :
    Keeps jobId jobType present token passed stage Anywhere (fail message token) := by
  refine keeps_bind keeps_lease ?_ fun _ _ _ => trivial
  rintro - _ ⟨rfl, -⟩
  exact keeps_settle nofun fun _ _ _ _ _ => nofun

/-! ## Writes of the goal, the message and the plan version -/

theorem keeps_setGoal (hpresent : present = true) :
    Keeps jobId jobType present token true (.following step .stored)
      (Comes (.following step .goalSet)) (updateGoal (.step step) token) := by
  refine keeps_fencedUpdateOne (fun _ _ _ => nofun) (keeps_answered (fun _ _ _ h => h)
    (fun _ _ => nofun) fun builders others s hsteps => ?_)
  obtain ⟨goal, hgoal⟩ := Option.isSome_iff_exists.mp (hsteps.present.trans hpresent)
  have hstores : s.Stores step := (hsteps.knows _ List.mem_cons_self).1
  simp only [run, hgoal, Goal.accepts, Bool.and_true]
  split
  · next hclause =>
    have hlater : Later jobId s (s.updateGoal token (.step step) goal) :=
      .of_goal hgoal hclause fun durable hstep => by
        obtain rfl := GoalUpdate.step.inj hstep
        exact hstores
    refine ⟨.following step .goalSet, hsteps.write rfl rfl hlater rfl rfl ⟨hstores, ?_⟩
      hsteps.messages (by rw [hgoal]; rfl), fun matched hmatched => ?_⟩
    · refine ⟨_, rfl, rfl, fun plan hplan => ?_⟩
      simp [Goal.update, hplan]
    · obtain rfl := Except.ok.inj hmatched
      exact fun _ _ => rfl
  · next hclause =>
    have houtrun : s.Outruns token := by
      cases hfence : goal.processingFence with
      | none => simp [hfence, fenceClause] at hclause
      | some fence =>
        refine ⟨goal, fence, hgoal, hfence, ?_⟩
        simpa [hfence, fenceClause] using hclause
    refine ⟨.following step .outrun, hsteps.learn rfl rfl ⟨hstores, houtrun⟩,
      fun matched hmatched => ?_⟩
    obtain rfl := Except.ok.inj hmatched
    refine keeps_rejectIfNewer (fun _ _ _ h => h) (fun _ _ _ _ => nofun) fun builders others s
      hsteps => ?_
    obtain ⟨-, goal, fence, hgoal, hfence, hlt⟩ := hsteps.knows _ List.mem_cons_self
    refine ⟨rfl, s.goal, rfl, fun hold => absurd (hold goal hgoal) ?_⟩
    rw [hfence, fenceValue, Option.getD_some]
    dsimp only at hlt
    omega

theorem keeps_touchGoal {update : GoalUpdate} (hupdate : ∀ step, update ≠ .step step) :
    Keeps jobId jobType present token passed stage (Comes stage) (updateGoal update token) := by
  have hreject : Keeps jobId jobType present token passed stage (Comes stage)
      (rejectIfNewer .findGoal Goal.processingFence token) :=
    keeps_rejectIfNewer (fun _ _ _ h => h) (fun _ _ _ _ => nofun) fun builders others s hsteps =>
      ⟨rfl, s.goal, rfl, fun _ => ⟨stage, hsteps, fun _ _ => rfl⟩⟩
  refine keeps_fencedUpdateOne (fun _ _ _ => nofun) (keeps_answered (fun _ _ _ h => h)
    (fun _ _ => nofun) fun builders others s hsteps => ?_)
  have hunmatched : ∃ stage', Steps jobId jobType present (⟨token, passed, stage'⟩ :: others) s ∧
      ∀ matched, (Except.ok 0 : Except Failure Nat) = .ok matched →
        if matched > 0 then Comes stage (.ok ()) stage'
        else Keeps jobId jobType present token passed stage' (Comes stage)
          (rejectIfNewer .findGoal Goal.processingFence token) := by
    refine ⟨stage, hsteps, fun matched hmatched => ?_⟩
    obtain rfl := Except.ok.inj hmatched
    exact hreject
  cases hgoal : s.goal with
  | none => simpa only [run, hgoal] using hunmatched
  | some goal =>
    simp only [run, hgoal]
    split
    · next hmatch =>
      have hlater : Later jobId s (s.updateGoal token update goal) :=
        .of_goal hgoal (Bool.and_eq_true_iff.mp hmatch).1 fun step hstep =>
          absurd hstep (hupdate step)
      refine ⟨stage, hsteps.write rfl rfl hlater rfl rfl ?_ hsteps.messages (by rw [hgoal]; rfl),
        fun matched hmatched => ?_⟩
      · exact (hsteps.knows _ List.mem_cons_self).later hlater fun _ _ hmem => .inl hmem
      · obtain rfl := Except.ok.inj hmatched
        exact fun _ _ => rfl
    · exact hunmatched

def Progress.shown (step : DurableStep) : Progress :=
  if step.plan.isNone then .versionSet else .messageSet

theorem keeps_putMessage {goal : Goal} :
    Keeps jobId jobType present token true (.following step .goalSet)
      (Comes (.following step (.shown step)))
      (send (.upsertMessage (stepMessage goal jobId step))) := by
  refine keeps_answered (fun _ _ _ h => h) (fun _ _ => nofun) fun builders others s hsteps => ?_
  obtain ⟨hstores, hgoal⟩ := hsteps.knows _ List.mem_cons_self
  have hlater : Later jobId s (s.putMessage (stepMessage goal jobId step)) := .of_message hstores
  have hmessage : (s.putMessage (stepMessage goal jobId step)).MessageHolds jobId step :=
    messageHolds_put (hsteps.messages _) (.refl step)
  refine ⟨.following step (.shown step),
    hsteps.write rfl rfl hlater rfl rfl ⟨hstores, ?_⟩ ?_ rfl, fun _ _ => rfl⟩
  · unfold Progress.shown
    split
    · next hnone =>
      refine ⟨hgoal, hmessage, fun plan hplan => ?_⟩
      rw [hplan] at hnone
      cases hnone
    · exact ⟨hgoal, hmessage⟩
  · intro stepId
    by_cases hkey : (stepMessage goal jobId step).key = (jobId, stepId)
    · rw [← hkey]
      have hatMost : (s.messages.filter fun other =>
          other.key = (stepMessage goal jobId step).key).length ≤ 1 := hkey ▸ hsteps.messages stepId
      exact (congrArg List.length (Keyed.filter_replaceOrAppend_self hatMost)).le
    · exact (congrArg List.length (Keyed.filter_replaceOrAppend_of_ne hkey)).trans_le
        (hsteps.messages stepId)

def Versioned (step : DurableStep) (outcome : Except Failure Unit) (stage : Stage) : Prop :=
  outcome = .ok () ∨ outcome = .error .duplicateKey → stage = .following step .versionSet

theorem Steps.putVersion {progress : Progress} (row : PlanVersion)
    (h : Steps jobId jobType present (⟨token, true, .following step progress⟩ :: others) s)
    (hplan : step.plan = some plan) (hversion : row.version = planVersionNumber plan)
    (hrow : row.plan = plan) (hgoal : s.GoalHolds step) (hmessage : s.MessageHolds jobId step) :
    Steps jobId jobType present (⟨token, true, .following step .versionSet⟩ :: others)
      (s.putVersion row) := by
  have hstores : s.Stores step := (h.knows _ List.mem_cons_self).1
  refine h.write rfl rfl (.of_version hstores hplan hrow) rfl rfl ⟨hstores, hgoal, hmessage, ?_⟩
    h.messages rfl
  intro plan' hplan'
  obtain rfl := Option.some.inj (hplan.symm.trans hplan')
  exact ⟨row, by rw [State.version?_putVersion, if_pos hversion], hrow⟩

theorem keeps_updateVersion (hplan : step.plan = some plan)
    (hversion : row.version = planVersionNumber plan) (hrow : row.plan = plan) :
    Keeps jobId jobType present token true (.following step .messageSet)
      (fun outcome stage' => outcome ≠ .error .duplicateKey ∧ ∀ matched, outcome = .ok matched →
        stage' = .following step (if matched > 0 then .versionSet else .unmatched))
      (send (.updateVersion row token)) := by
  refine keeps_answered (fun _ _ _ h => h) (fun _ => ⟨nofun, nofun⟩) fun builders others s hsteps =>
    ?_
  obtain ⟨hstores, hgoal, hmessage⟩ := hsteps.knows _ List.mem_cons_self
  have hunmatched (hrows : s.RowsHold step (Newer token)) : ∃ stage',
      Steps jobId jobType present (⟨token, true, stage'⟩ :: others) s ∧
        (Except.ok 0 : Except Failure Nat) ≠ .error .duplicateKey ∧
          ∀ matched, (Except.ok 0 : Except Failure Nat) = .ok matched →
            stage' = .following step (if matched > 0 then .versionSet else .unmatched) := by
    refine ⟨.following step .unmatched,
      hsteps.learn rfl rfl ⟨hstores, hgoal, hmessage, hrows⟩, nofun, fun matched hmatched => ?_⟩
    obtain rfl := Except.ok.inj hmatched
    rfl
  cases hfound : s.version? row.version with
  | none =>
    simp only [run, hfound]
    refine hunmatched fun plan' found hplan' hsome => ?_
    obtain rfl := Option.some.inj (hplan.symm.trans hplan')
    rw [← hversion, hfound] at hsome
    cases hsome
  | some stored =>
    simp only [run, hfound]
    split
    · refine ⟨_, hsteps.putVersion { row with processingFence := some token } hplan
        hversion hrow hgoal hmessage, nofun, fun matched hmatched => ?_⟩
      obtain rfl := Except.ok.inj hmatched
      rfl
    · next hclause =>
      refine hunmatched fun plan' found hplan' hsome => .inl ?_
      obtain rfl := Option.some.inj (hplan.symm.trans hplan')
      rw [← hversion, hfound] at hsome
      obtain rfl := Option.some.inj hsome
      cases hfence : stored.processingFence with
      | none => simp [hfence, fenceClause] at hclause
      | some fence =>
        refine ⟨fence, hfence, ?_⟩
        simpa [hfence, fenceClause] using hclause

theorem keeps_probeVersion (hplan : step.plan = some plan)
    (hversion : row.version = planVersionNumber plan) :
    Keeps jobId jobType present token true (.following step .unmatched)
      (fun outcome stage' => outcome ≠ .error .duplicateKey ∧
        Comes (.following step .probed) outcome stage')
      (rejectIfNewer (.findVersion row.version) PlanVersion.processingFence token) := by
  refine keeps_rejectIfNewer (fun _ _ _ h => h)
    (fun error _ hne => ⟨fun hsame => hne (Except.error.inj hsame), fun _ => nofun⟩)
    fun builders others s hsteps => ?_
  refine ⟨rfl, s.version? row.version, rfl, fun hold => ?_⟩
  obtain ⟨hstores, hgoal, hmessage, hrows⟩ := hsteps.knows _ List.mem_cons_self
  refine ⟨.following step .probed, hsteps.learn rfl rfl ⟨hstores, hgoal, hmessage, ?_⟩,
    nofun, fun _ _ => rfl⟩
  intro plan' found hplan' hfound
  rcases hrows plan' found hplan' hfound with ⟨fence, hfence, hlt⟩ | hsame
  · obtain rfl := Option.some.inj (hplan.symm.trans hplan')
    rw [hversion] at hold
    have hle := hold found hfound
    rw [hfence, fenceValue, Option.getD_some] at hle
    dsimp only at hlt
    omega
  · exact .inr hsame

theorem keeps_probeAgain {version : Int} :
    Keeps jobId jobType present token passed stage
      (fun outcome stage' => outcome ≠ .error .duplicateKey ∧ Comes stage outcome stage')
      (rejectIfNewer (.findVersion version) PlanVersion.processingFence token) :=
  keeps_rejectIfNewer (fun _ _ _ h => h)
    (fun _ _ hne => ⟨fun hsame => hne (Except.error.inj hsame), fun _ => nofun⟩)
    fun _ _ s hsteps =>
      ⟨rfl, s.version? version, rfl, fun _ => ⟨stage, hsteps, nofun, fun _ _ => rfl⟩⟩

theorem keeps_insertRow (hplan : step.plan = some plan)
    (hversion : row.version = planVersionNumber plan) (hrow : row.plan = plan) :
    Keeps jobId jobType present token true (.following step .probed) (Versioned step)
      (send (.upsertVersion row token)) := by
  refine keeps_send fun others s reply s' hsteps hstep => ?_
  obtain ⟨hstores, hgoal, hmessage, hrows⟩ := hsteps.knows _ List.mem_cons_self
  have hput := hsteps.putVersion { row with processingFence := some token } hplan hversion
    hrow hgoal hmessage
  rcases hstep with ⟨builders, hanswers⟩ | ⟨hfound, rfl, rfl⟩
  · cases hanswers with
    | answered => exact ⟨_, hput, fun _ => rfl⟩
    | unsent => exact ⟨_, hsteps, nofun⟩
    | unheard => exact ⟨_, hput, fun _ => rfl⟩
  · refine ⟨.following step .versionSet,
      hsteps.learn rfl rfl ⟨hstores, hgoal, hmessage, ?_⟩, fun _ => rfl⟩
    intro plan' hplan'
    obtain ⟨found, hsome⟩ := Option.isSome_iff_exists.mp hfound
    rw [hversion] at hsome
    obtain rfl := Option.some.inj (hplan.symm.trans hplan')
    exact ⟨found, hsome, (hrows plan found hplan hsome).resolve_left id⟩

theorem keeps_upsertVersion (hplan : step.plan = some plan)
    (hversion : row.version = planVersionNumber plan) (hrow : row.plan = plan) :
    Keeps jobId jobType present token true (.following step .messageSet) (Versioned step)
      (upsertVersion row token) := by
  have hraised : ∀ error (stage' : Stage), error ≠ .duplicateKey →
      Versioned step (.error error) stage' := by
    rintro error stage' hne (hok | hduplicate)
    · cases hok
    · exact absurd (Except.error.inj hduplicate) hne
  have hother : ∀ {α : Type} (outcome : Except Failure α) error (stage' : Stage),
      outcome ≠ .error .duplicateKey → outcome = .error error →
        Versioned step (.error error) stage' := by
    rintro α _ error stage' hne rfl
    exact hraised error stage' fun hsame => hne (congrArg _ hsame)
  refine keeps_bind keeps_lease ?_ fun error stage' hlease => hother _ _ _ hlease.2 rfl
  rintro - _ ⟨rfl, -⟩
  refine keeps_bind (keeps_updateVersion hplan hversion hrow) (fun matched stage' hmiddle => ?_)
    fun error stage' hmiddle => hother _ _ _ hmiddle.1 rfl
  obtain rfl := hmiddle.2 matched rfl
  by_cases hmatched : matched > 0
  · rw [if_pos hmatched, if_pos hmatched]
    exact keeps_pure fun _ => rfl
  rw [if_neg hmatched, if_neg hmatched]
  refine keeps_bind (keeps_probeVersion hplan hversion) (fun _ stage' hprobed => ?_)
    fun error stage' hprobed => hother _ _ _ hprobed.1 rfl
  obtain rfl := hprobed.2 _ rfl
  refine keeps_attempt (keeps_insertRow hplan hversion hrow) fun outcome stage' hinserted => ?_
  cases outcome with
  | ok value => exact keeps_pure fun _ => hinserted (.inl rfl)
  | error error =>
    dsimp only
    split
    · next hduplicate =>
      obtain rfl := hinserted (.inr (congrArg _ hduplicate))
      refine keeps_bind keeps_probeAgain (fun _ stage' hprobed => ?_)
        fun error stage' hprobed => hother _ _ _ hprobed.1 rfl
      exact keeps_throw _ fun _ => hprobed.2 _ rfl
    · next hne => exact keeps_throw _ (hraised error _ hne)

theorem keeps_findVersion {version : Int} :
    Keeps jobId jobType present token passed stage (Comes stage) (send (.findVersion version)) :=
  keeps_read (fun _ _ _ => rfl) fun _ _ _ ⟨_, hanswers⟩ => hanswers.state.elim id id

theorem keeps_savePlanVersion {goal : Goal} (hplan : step.plan = some plan) :
    Keeps jobId jobType present token true (.following step .messageSet)
      (Comes (.following step .versionSet)) (savePlanVersion goal jobId plan token) := by
  refine keeps_attempt (keeps_upsertVersion hplan rfl rfl) fun outcome stage' hversioned => ?_
  match outcome with
  | .ok value => exact keeps_pure fun _ _ => hversioned (.inl rfl)
  | .error .duplicateKey =>
    obtain rfl := hversioned (.inr rfl)
    refine keeps_comes keeps_findVersion (fun _ _ _ => nofun) fun existing => ?_
    refine keeps_bind keeps_lease ?_ fun _ _ _ _ => nofun
    rintro - _ ⟨rfl, -⟩
    cases existing with
    | none => exact keeps_pure fun _ _ => rfl
    | some existing =>
      dsimp only
      split
      · exact keeps_throw _ fun _ => nofun
      · exact keeps_pure fun _ _ => rfl
  | .error (.staleOwnership _) | .error .leavePending | .error (.nonRetryable _)
  | .error .exception => exact keeps_throw _ fun _ => nofun

theorem keeps_saveStep (hstage : stage.MayStore jobType step) :
    Keeps jobId jobType present token true stage Anywhere (saveStep jobId step token) := by
  refine keeps_bind keeps_lease ?_ fun _ _ _ => trivial
  rintro - _ ⟨rfl, -⟩
  refine keeps_bind keeps_findGoal ?_ fun _ _ _ => trivial
  rintro goal _ ⟨rfl, hfound⟩
  cases goal with
  | none => exact keeps_pure trivial
  | some goal =>
    have hsame : DurableStep.Same { step with assistantText := Text.take 4000 step.assistantText }
        step := ⟨rfl, rfl, take_take 4000 step.assistantText⟩
    refine keeps_comes (keeps_storeStep hstage hsame) (fun _ _ => trivial) fun _ => ?_
    refine keeps_comes (keeps_setGoal (hfound goal rfl)) (fun _ _ => trivial) fun _ => ?_
    refine keeps_comes keeps_putMessage (fun _ _ => trivial) fun _ => ?_
    have hready : Keeps jobId jobType present token true (.following step .versionSet) Anywhere
        (updateJob (.ready step.model) token) := by
      refine keeps_settle nofun fun others s job hsteps _ _ _ => ?_
      obtain ⟨hstores, happlied⟩ := hsteps.knows _ List.mem_cons_self
      exact ⟨step, hstores, happlied⟩
    dsimp only
    cases hplan : step.plan with
    | none =>
      rw [Progress.shown, hplan]
      exact hready
    | some plan =>
      rw [Progress.shown, hplan]
      refine keeps_comes (keeps_savePlanVersion hplan) (fun _ _ => trivial) fun _ => ?_
      exact hready

/-! ## The work of an attempt -/

theorem keeps_storeEvidence :
    Keeps jobId jobType present token passed stage (Comes stage) Attempt.storeEvidence := by
  have hupsert : Keeps jobId jobType present token passed stage (fun _ stage' => stage' = stage)
      (send .upsertEvidence) := keeps_read (fun _ => rfl) fun _ _ _ h => h
  refine keeps_attempt hupsert ?_
  rintro outcome _ rfl
  match outcome with
  | .ok _ => exact keeps_pure fun _ _ => rfl
  | .error .duplicateKey => exact keeps_pure fun _ _ => rfl
  | .error (.staleOwnership _) | .error .leavePending | .error (.nonRetryable _)
  | .error .exception => exact keeps_throw _ fun _ => nofun

theorem keeps_storeFindings {findings : List String} :
    Keeps jobId jobType present token passed stage (Comes stage)
      (Attempt.storeFindings findings) := by
  induction findings with
  | nil => exact keeps_pure fun _ _ => rfl
  | cons finding findings ih =>
    unfold Attempt.storeFindings
    split
    · refine keeps_comes keeps_storeEvidence (fun _ _ _ => nofun) fun _ => ?_
      exact ih
    · exact ih

theorem Steps.call (h : Steps jobId jobType present (⟨token, passed, .working⟩ :: others) s) :
    Steps jobId jobType present (⟨token, passed, .working⟩ :: others)
      (s.record (.called token)) := by
  have hlater : Later jobId s (s.record (.called token)) := .of_record _
  have hlogs : Logs jobType ⟨token, passed, .working⟩ ⟨token, passed, .working⟩ s
      (s.record (.called token)) := .called rfl rfl rfl fun durable hstores => ⟨durable, hstores⟩
  refine h.next rfl hlater hlogs ?_ h.messages (h.ready_later hlater fun job hjob hready =>
    ⟨job, hjob, hready⟩) h.fenced rfl
  exact (h.knows _ List.mem_cons_self).later hlater fun _ token' hmem =>
    .inl (by simpa [State.record] using hmem)

theorem keeps_build {builder : Builder} {goal : Goal} {messages : List Message}
    (hbuilder : builder ≠ .review) :
    Keeps jobId jobType present token passed .working (Comes .working)
      (send (.build builder goal messages)) := by
  refine keeps_send fun others s reply s' hsteps hstep => ?_
  obtain rfl : s' = s.record (.called token) := by
    cases builder with
    | review => exact absurd rfl hbuilder
    | clarify => exact hstep
    | baseline => exact hstep
    | plan => exact hstep
  exact ⟨.working, hsteps.call, fun _ _ => rfl⟩

theorem keeps_buildReview {goal : Goal} (hreview : jobType.savesStep = false) :
    Keeps jobId jobType present token passed .working (Comes .working)
      (send (.build .review goal [])) := by
  refine keeps_send fun others s reply s' hsteps hstep => ?_
  obtain ⟨fence, versions, rfl⟩ : Reviewed (s.record (.called token)) s' := hstep
  have hcalled := hsteps.call
  have hnone : ∀ durable, ¬ (s.record (.called token)).Stores durable := by
    intro durable hstores
    have hsaves := hcalled.typed durable hstores
    rw [hreview] at hsaves
    cases hsaves
  have hlater : Later jobId (s.record (.called token)) { s.record (.called token) with
      goal := s.goal.map fun goal => { goal with processingFence := fence }, versions } :=
    ⟨fun _ h => h, fun _ h => h, fun durable _ h => absurd h (hnone durable),
      fun durable h => absurd h (hnone durable), fun durable h => absurd h (hnone durable),
      fun durable _ h => absurd h (hnone durable), fun durable h => absurd h (hnone durable)⟩
  refine ⟨.working, hcalled.write rfl rfl hlater rfl rfl ?_ hcalled.messages ?_, fun _ _ => rfl⟩
  · exact (hcalled.knows _ List.mem_cons_self).later hlater fun _ _ hmem => .inl hmem
  · exact Option.isSome_map

section Attempts

variable {attempt : Attempt} {goal : Goal}

abbrev Attempt.KeepsWorking (attempt : Attempt) (present : Bool) (prog : Working α) : Prop :=
  Keeps attempt.jobId attempt.jobType present attempt.token true .working Anywhere prog

theorem keeps_clarify (hsaves : attempt.jobType.savesStep = true) :
    attempt.KeepsWorking present (attempt.clarify goal) := by
  refine keeps_comes keeps_findMessages (fun _ _ => trivial) fun messages => ?_
  refine keeps_comes (keeps_build nofun) (fun _ _ => trivial) fun built => ?_
  exact keeps_saveStep hsaves

theorem keeps_baseline (hsaves : attempt.jobType.savesStep = true) :
    attempt.KeepsWorking present (attempt.baseline goal) := by
  refine keeps_comes (keeps_build nofun) (fun _ _ => trivial) fun built => ?_
  refine keeps_comes keeps_storeFindings (fun _ _ => trivial) fun _ => ?_
  dsimp only
  split
  · refine keeps_comes (keeps_touchGoal nofun) (fun _ _ => trivial) fun _ => ?_
    exact keeps_saveStep hsaves
  · exact keeps_saveStep hsaves

theorem keeps_plan (hsaves : attempt.jobType.savesStep = true) :
    attempt.KeepsWorking present (attempt.plan goal) := by
  refine keeps_comes keeps_findMessages (fun _ _ => trivial) fun messages => ?_
  refine keeps_comes (keeps_touchGoal nofun) (fun _ _ => trivial) fun _ => ?_
  refine keeps_comes (keeps_build nofun) (fun _ _ => trivial) fun built => ?_
  dsimp only
  split
  · refine keeps_bind keeps_fail (fun _ stage' _ => ?_) fun _ _ _ => trivial
    exact keeps_throw _ trivial
  · exact keeps_saveStep hsaves

theorem keeps_evidenceReady (hsaves : jobType.savesStep = false) :
    Keeps jobId jobType present token passed stage Anywhere (updateJob .evidenceReady token) := by
  refine keeps_settle nofun fun others s job hsteps _ _ hsaved => ?_
  rw [hsaves] at hsaved
  cases hsaved

theorem keeps_evidence (hsaves : attempt.jobType.savesStep = false) :
    attempt.KeepsWorking present attempt.evidence := by
  refine keeps_comes keeps_storeEvidence (fun _ _ => trivial) fun _ => ?_
  refine keeps_comes (keeps_touchGoal nofun) (fun _ _ => trivial) fun _ => ?_
  exact keeps_evidenceReady hsaves

theorem keeps_review (hsaves : attempt.jobType.savesStep = false) :
    attempt.KeepsWorking present (attempt.review goal) := by
  refine keeps_comes keeps_findJob (fun _ _ => trivial) fun job => ?_
  refine keeps_comes (keeps_buildReview hsaves) (fun _ _ => trivial) fun _ => ?_
  refine keeps_comes (keeps_touchGoal nofun) (fun _ _ => trivial) fun _ => ?_
  exact keeps_evidenceReady hsaves

theorem keeps_work : attempt.KeepsWorking present (attempt.work goal) := by
  unfold Attempt.work
  split
  · next htype => exact keeps_baseline (by rw [htype]; rfl)
  · next htype => exact keeps_plan (by rw [htype]; rfl)
  · next htype => exact keeps_plan (by rw [htype]; rfl)
  · next htype => exact keeps_evidence (by rw [htype]; rfl)
  · next htype => exact keeps_review (by rw [htype]; rfl)
  · next htype => exact keeps_clarify (by rw [htype]; rfl)

/-! ## Attempts -/

theorem keeps_passClaim {prog : Working Unit}
    (hprog : Keeps jobId jobType present token true stage Anywhere prog) :
    Holds (under token goalSemantics) (Steps jobId jobType present) (fun _ _ => True)
      ⟨token, false, stage⟩ (send .passClaim >>= fun _ => prog).run := by
  refine Holds.raising_then (fun _ holding => holding = ⟨token, true, stage⟩) ?_ ?_
    fun _ _ _ => trivial
  · refine Holds.send fun others s reply s' hsteps hstep => ?_
    obtain ⟨rfl, rfl⟩ : s' = s.record (.passed token) ∧ reply = .ok () := hstep
    have hlater : Later jobId s (s.record (.passed token)) := .of_record _
    have hlogs : Logs jobType ⟨token, false, stage⟩ ⟨token, true, stage⟩ s
        (s.record (.passed token)) := .passed rfl rfl rfl fun durable hstores => ⟨durable, hstores⟩
    refine ⟨⟨token, true, stage⟩, hsteps.next rfl hlater hlogs ?_ hsteps.messages
      (hsteps.ready_later hlater fun job hjob hready => ⟨job, hjob, hready⟩) hsteps.fenced rfl,
      rfl⟩
    have hknows : Holding.Knows jobId s ⟨token, true, stage⟩ :=
      hsteps.knows ⟨token, false, stage⟩ List.mem_cons_self
    exact hknows.later hlater fun _ token' hmem => .inl (by simpa [State.record] using hmem)
  · rintro - _ rfl
    exact hprog.mono fun _ _ _ => trivial

theorem keeps_proceed {job : Job} :
    Holds (under attempt.token goalSemantics) (Steps attempt.jobId attempt.jobType present)
      (fun _ _ => True) ⟨attempt.token, false, job.known⟩ (attempt.proceed job).run := by
  refine keeps_passClaim ?_
  unfold Job.known
  cases hdurable : job.durableStep with
  | some durable => exact keeps_saveStep (DurableStep.Same.refl _)
  | none =>
    refine keeps_bind keeps_findGoal ?_ fun _ _ _ => trivial
    rintro goal _ ⟨rfl, -⟩
    cases goal with
    | none =>
      refine keeps_bind keeps_fail (fun _ stage' _ => ?_) fun _ _ _ => trivial
      exact keeps_throw _ trivial
    | some goal =>
      refine keeps_attempt keeps_work fun outcome stage' _ => ?_
      match outcome with
      | .ok _ => exact keeps_pure trivial
      | .error (.nonRetryable message) => exact keeps_throw _ trivial
      | .error (.staleOwnership reason) => exact keeps_throw _ trivial
      | .error .leavePending => exact keeps_throw _ trivial
      | .error .duplicateKey => exact keeps_fail
      | .error .exception => exact keeps_fail

/-- What an attempt knows once `claim` returns. -/
def Claimed : Except Failure Claim → Stage → Prop
  | .ok (.owned job), stage | .ok (.claimed job), stage | .ok (.recovered job), stage =>
    stage = job.known
  | .ok (.done job), stage =>
    ∀ durable, job.durableStep = some durable → stage = .following durable .stored
  | _, _ => True

def Found (token : Int) (outcome : Except Failure (Option Job)) (stage : Stage) : Prop :=
  ∀ job, outcome = .ok (some job) →
    (job.status = .ready → ∀ durable, job.durableStep = some durable →
      stage = .following durable .stored) ∧
    (job.status = .running → fenceValue job.processingFence = token → stage = job.known) ∧
    (job.status = .running → fenceValue job.processingFence ≠ token → stage = .seen)

theorem fence_of_value {fence : Option Int} (hpositive : 0 < token) (h : fenceValue fence = token) :
    fence = some token := by
  cases fence with
  | none =>
    rw [← h] at hpositive
    exact absurd hpositive (Int.lt_irrefl 0)
  | some fence => exact congrArg some h

theorem keeps_find (hpositive : 0 < token) :
    Keeps jobId jobType present token false .free (Found token) (send .findJob) := by
  refine keeps_answered (fun _ _ _ h => h) (fun _ _ => nofun) fun builders others s hsteps => ?_
  have hfound {stage' : Stage}
      (hsteps' : Steps jobId jobType present (⟨token, false, stage'⟩ :: others) s)
      (hpost : Found token (.ok s.job) stage') : ∃ stage',
        Steps jobId jobType present (⟨token, false, stage'⟩ :: others) s ∧
          Found token (.ok s.job) stage' := ⟨stage', hsteps', hpost⟩
  change ∃ stage', Steps jobId jobType present (⟨token, false, stage'⟩ :: others) s ∧
    Found token (.ok s.job) stage'
  cases hjob : s.job with
  | none => exact hjob ▸ hfound hsteps (by rw [hjob]; exact fun _ => nofun)
  | some job =>
    rw [hjob] at hfound
    by_cases hready : job.status = .ready
    · cases hdurable : job.durableStep with
      | none =>
        refine hfound hsteps fun job' hsame => ?_
        obtain rfl := Option.some.inj (Except.ok.inj hsame)
        rw [hready, hdurable]
        exact ⟨fun _ _ => nofun, nofun, nofun⟩
      | some durable =>
        have hfollows : Steps jobId jobType present
            (⟨token, false, .following durable .stored⟩ :: others) s :=
          hsteps.learn rfl rfl ⟨⟨job, durable, hjob, hdurable, .refl durable⟩, trivial⟩
        refine hfound hfollows fun job' hsame => ?_
        obtain rfl := Option.some.inj (Except.ok.inj hsame)
        rw [hready, hdurable]
        exact ⟨fun _ durable' hsome => by rw [Option.some.inj hsome], nofun, nofun⟩
    · by_cases hrunning : job.status = .running
      · have hstatus : job.status ≠ .queued := by rw [hrunning]; exact nofun
        obtain ⟨fence, hfence⟩ := hsteps.fenced job hjob hstatus
        by_cases hmine : fenceValue job.processingFence = token
        · refine hfound (hsteps.know hjob hstatus (fence_of_value hpositive hmine))
            fun job' hsame => ?_
          obtain rfl := Option.some.inj (Except.ok.inj hsame)
          exact ⟨fun h => absurd h hready, fun _ _ => rfl, fun _ h => absurd hmine h⟩
        · have hseen : Steps jobId jobType present (⟨token, false, .seen⟩ :: others) s :=
            hsteps.learn rfl rfl ⟨fence, job, fence, hjob, hstatus, hfence, Int.le_refl fence⟩
          refine hfound hseen fun job' hsame => ?_
          obtain rfl := Option.some.inj (Except.ok.inj hsame)
          exact ⟨fun h => absurd h hready, fun _ h => absurd h hmine, fun _ _ => rfl⟩
      · refine hfound hsteps fun job' hsame => ?_
        obtain rfl := Option.some.inj (Except.ok.inj hsame)
        exact ⟨fun h => absurd h hready, fun h => absurd h hrunning, fun h => absurd h hrunning⟩

theorem keeps_findAgain (hpositive : 0 < token) :
    Keeps jobId jobType present token false .seen
      (fun outcome stage' => ∀ job, outcome = .ok (some job) →
        (job.status = .ready → ∀ durable, job.durableStep = some durable →
          stage' = .following durable .stored) ∧
        (job.status ≠ .ready → fenceValue job.processingFence = token → stage' = job.known))
      (send .findJob) := by
  refine keeps_answered (fun _ _ _ h => h) (fun _ _ => nofun) fun builders others s hsteps => ?_
  obtain ⟨seen, job, fence, hjob, hstatus, hfence, -⟩ := hsteps.knows _ List.mem_cons_self
  have hrun : (run builders token .findJob s).1 = .ok (some job) := congrArg Except.ok hjob
  rw [hrun]
  by_cases hready : job.status = .ready
  · cases hdurable : job.durableStep with
    | none =>
      refine ⟨.seen, hsteps, fun job' hsame => ?_⟩
      obtain rfl := Option.some.inj (Except.ok.inj hsame)
      rw [hdurable]
      exact ⟨fun _ _ => nofun, fun h => absurd hready h⟩
    | some durable =>
      refine ⟨.following durable .stored,
        hsteps.learn rfl rfl ⟨⟨job, durable, hjob, hdurable, .refl durable⟩, trivial⟩,
        fun job' hsame => ?_⟩
      obtain rfl := Option.some.inj (Except.ok.inj hsame)
      rw [hdurable]
      exact ⟨fun _ durable' hsome => by rw [Option.some.inj hsome], fun h => absurd hready h⟩
  · by_cases hmine : fenceValue job.processingFence = token
    · refine ⟨job.known, hsteps.know hjob hstatus (fence_of_value hpositive hmine),
        fun job' hsame => ?_⟩
      obtain rfl := Option.some.inj (Except.ok.inj hsame)
      exact ⟨fun h => absurd h hready, fun _ _ => rfl⟩
    · refine ⟨.seen, hsteps, fun job' hsame => ?_⟩
      obtain rfl := Option.some.inj (Except.ok.inj hsame)
      exact ⟨fun h => absurd h hready, fun _ h => absurd h hmine⟩

theorem keeps_claimAgain (hpositive : 0 < token) :
    Keeps jobId jobType present token false .seen Claimed (claimAgain token) := by
  refine keeps_bind (keeps_findAgain hpositive) (fun again stage' hfound => ?_) fun _ _ _ => trivial
  cases again with
  | none => exact keeps_pure trivial
  | some again =>
    obtain ⟨hready, hmine⟩ := hfound again rfl
    dsimp only
    split
    · next hstatus => exact keeps_pure (hready hstatus)
    · next hstatus =>
      split
      · exact keeps_pure trivial
      split
      · next hfence => exact keeps_pure (hmine hstatus hfence)
      · exact keeps_pure trivial

def Taken (stage : Stage) (outcome : Except Failure (Option Job)) (stage' : Stage) : Prop :=
  match outcome with
  | .ok (some job) => stage' = job.known
  | .ok none => stage' = stage
  | .error _ => True

theorem keeps_start :
    Keeps jobId jobType present token false .free (Taken .free) (send (.startJob owner token)) := by
  refine keeps_answered (fun _ _ _ h => h) (fun _ => trivial) fun builders others s hsteps => ?_
  cases hjob : s.job with
  | none =>
    simp only [run, hjob]
    exact ⟨.free, hsteps, rfl⟩
  | some job =>
    simp only [run, hjob]
    split
    · next hqueued =>
      exact ⟨job.known, hsteps.claim hjob fun fence hstatus _ => absurd hqueued hstatus, rfl⟩
    · exact ⟨.free, hsteps, rfl⟩

theorem keeps_recover {seen : Option Int} (hseen : fenceValue seen < token) :
    Keeps jobId jobType present token false .seen (Taken .seen)
      (send (.recoverJob seen owner token)) := by
  refine keeps_answered (fun _ _ _ h => h) (fun _ => trivial) fun builders others s hsteps => ?_
  cases hjob : s.job with
  | none =>
    simp only [run, hjob]
    exact ⟨.seen, hsteps, rfl⟩
  | some job =>
    simp only [run, hjob]
    split
    · next hmatch =>
      obtain ⟨hrunning, hclause⟩ := Bool.and_eq_true_iff.mp hmatch
      have hsame : { job with
          processingOwner := owner, processingFence := some token,
          processingAttempt := job.processingAttempt + 1 } = { job with
          status := .running, processingOwner := owner, processingFence := some token,
          processingAttempt := job.processingAttempt + 1 } := by
        rw [← of_decide_eq_true hrunning]
      rw [hsame]
      refine ⟨job.known, hsteps.claim hjob fun fence _ hfence => ?_, rfl⟩
      rw [hfence] at hclause
      unfold seenClause at hclause
      cases seen with
      | none =>
        simp [fenceValue] at hclause hseen
        omega
      | some value =>
        obtain rfl := Option.some.inj (of_decide_eq_true hclause)
        exact hseen
    · exact ⟨.seen, hsteps, rfl⟩

theorem keeps_claim (hpositive : 0 < token) :
    Keeps jobId jobType present token false .free Claimed (claim owner token) := by
  refine keeps_bind keeps_lease ?_ fun _ _ _ => trivial
  rintro - _ ⟨rfl, -⟩
  refine keeps_bind keeps_start (fun started stage' hstarted => ?_) fun _ _ _ => trivial
  cases started with
  | some job => exact keeps_pure hstarted
  | none =>
    obtain rfl := hstarted
    refine keeps_bind (keeps_find hpositive) (fun existing stage' hfound => ?_) fun _ _ _ => trivial
    cases existing with
    | none => exact keeps_pure trivial
    | some existing =>
      obtain ⟨hready, hmine, hother⟩ := hfound existing rfl
      dsimp only
      split
      · next hstatus => exact keeps_pure (hready hstatus)
      · next hstatus =>
        split
        · exact keeps_pure trivial
        split
        · next hfence => exact keeps_pure (hmine hstatus hfence)
        · next hbelow hfence =>
          obtain rfl := hother hstatus hfence
          refine keeps_bind (keeps_recover (by omega)) (fun recovered stage' hrecovered => ?_)
            fun _ _ _ => trivial
          cases recovered with
          | some job => exact keeps_pure hrecovered
          | none =>
            obtain rfl := hrecovered
            exact keeps_claimAgain hpositive
      · exact keeps_pure trivial

theorem keeps_insertVersion {durable : DurableStep} (hplan : durable.plan = some plan)
    (hrow : row.plan = plan) :
    Keeps jobId jobType present token passed (.following durable .stored) Anywhere
      (send (.insertVersion row)) := by
  refine keeps_answered (fun _ _ _ h => h) (fun _ => trivial) fun builders others s hsteps => ?_
  simp only [run]
  split
  · exact ⟨_, hsteps, trivial⟩
  · have hstores : s.Stores durable := (hsteps.knows _ List.mem_cons_self).1
    have hlater : Later jobId s (s.putVersion row) := .of_version hstores hplan hrow
    exact ⟨.following durable .stored, hsteps.write rfl rfl hlater rfl rfl
      ⟨hlater.stores _ hstores, trivial⟩ hsteps.messages rfl, trivial⟩

theorem keeps_reconcile {goalId : String} {job : Job}
    (hstage : ∀ durable, job.durableStep = some durable → stage = .following durable .stored) :
    Keeps jobId jobType present token passed stage Anywhere
      (reconcileMissingPlanVersion goalId jobId job) := by
  unfold reconcileMissingPlanVersion
  split
  · exact keeps_pure trivial
  · next plan hbind =>
    obtain ⟨durable, hdurable, hplan⟩ := Option.bind_eq_some_iff.mp hbind
    obtain rfl := hstage durable hdurable
    split
    · exact keeps_pure trivial
    · refine keeps_comes keeps_findVersion (fun _ _ => trivial) fun existing => ?_
      cases existing with
      | some row => exact keeps_pure trivial
      | none =>
        refine keeps_attempt (keeps_insertVersion hplan rfl) fun outcome stage' _ => ?_
        match outcome with
        | .ok inserted => exact keeps_pure trivial
        | .error .duplicateKey => exact keeps_pure trivial
        | .error (.staleOwnership _) | .error .leavePending | .error (.nonRetryable _)
        | .error .exception => exact keeps_throw _ trivial

theorem keeps_handle (hpositive : 0 < attempt.token) :
    Holds (under attempt.token goalSemantics) (Steps attempt.jobId attempt.jobType present)
      (fun _ _ => True) ⟨attempt.token, false, .free⟩ attempt.handle.run := by
  refine Holds.raising_then _ (keeps_claim hpositive) ?_ fun _ _ _ => trivial
  rintro outcome _ ⟨stage', rfl, hclaimed⟩
  match outcome with
  | .missing => trivial
  | .busy => trivial
  | .terminal => trivial
  | .owned job =>
    obtain rfl := hclaimed
    exact keeps_proceed
  | .claimed job =>
    obtain rfl := hclaimed
    exact keeps_proceed
  | .recovered job =>
    obtain rfl := hclaimed
    exact keeps_proceed
  | .done job =>
    refine Holds.raising_then _ (keeps_reconcile hclaimed) ?_ fun _ _ _ => trivial
    exact fun _ _ _ => trivial

end Attempts

end Functions

/-! ## Runs -/

def startHoldings (attempts : List Attempt) : List Holding :=
  attempts.map fun attempt => ⟨attempt.token, false, .free⟩

theorem Queued.steps {jobId : String} {jobType : JobType} {attempts : List Attempt} {s : State}
    (h : Queued jobId s) (hattempts : Attempts jobId jobType attempts) :
    Steps jobId jobType s.goal.isSome (startHoldings attempts) s := by
  obtain ⟨job, hjob, hstatus, hnone⟩ := h.job
  have hstores : ∀ durable, ¬ s.Stores durable := by
    rintro durable ⟨job', stored, hjob', hstored, -⟩
    rw [hjob] at hjob'
    obtain rfl := Option.some.inj hjob'
    rw [hnone] at hstored
    cases hstored
  refine ⟨?_, ?_, ?_, ?_, ?_, ?_, fun _ h => absurd h (hstores _), fun _ h => absurd h (hstores _),
    ?_, ?_, ?_, rfl⟩
  · rw [startHoldings, List.map_map]
    exact List.pairwise_map.mpr (hattempts.increasing.imp fun hlt => Int.ne_of_lt hlt)
  · intro holding hmem
    obtain ⟨attempt, -, rfl⟩ := List.mem_map.mp hmem
    trivial
  · intro holding _ _
    rw [h.log]
    exact List.not_mem_nil
  · rw [h.log]
    exact List.nodup_nil
  · intro newer token older token' hsplit
    rw [h.log] at hsplit
    cases newer <;> cases hsplit
  · intro token hmem
    rw [h.log] at hmem
    cases hmem
  · intro stepId
    rw [List.filter_eq_nil_iff.mpr]
    · exact Nat.zero_le 1
    · intro message hmem hkey
      exact h.messages message hmem (congrArg Prod.fst (of_decide_eq_true hkey))
  · intro job' hjob' hready
    rw [hjob] at hjob'
    obtain rfl := Option.some.inj hjob'
    rw [hstatus] at hready
    cases hready
  · intro job' hjob' hqueued
    rw [hjob] at hjob'
    obtain rfl := Option.some.inj hjob'
    exact absurd hstatus hqueued

theorem goal_run_steps {jobId : String} {jobType : JobType} {attempts : List Attempt}
    {start : State} {pool : Pool GoalCommand Unit State} (hstart : Queued jobId start)
    (hattempts : Attempts jobId jobType attempts) (hrun : GoalRun attempts start pool) :
    pool.Held goalSemantics (Steps jobId jobType start.goal.isSome) := by
  have hpool : (goalPool attempts start).Held goalSemantics
      (Steps jobId jobType start.goal.isSome) := by
    refine ⟨startHoldings attempts, ?_, hstart.steps hattempts⟩
    unfold startHoldings goalPool
    rw [List.forall₂_map_left_iff, List.forall₂_map_right_iff, List.forall₂_same]
    intro attempt hmem
    obtain ⟨rfl, rfl⟩ := hattempts.job attempt hmem
    exact Holds.labelled ((keeps_handle (hattempts.positive attempt hmem)).then
      fun _ _ _ => trivial)
  exact hpool.steps (fun _ _ _ hperm h => h.perm hperm) (fun _ _ _ _ hspawn => hspawn.elim)
    (fun _ _ _ _ hmove => hmove.elim) hrun

/-- At every moment of a run of the attempts at one goal job, at most one attempt has gone on past
`claim` with any token, no attempt has called the model after one with a smaller token had stored
the step, and a job that is ready has its step in the goal, in exactly one message and, with a
plan, in the row of the plan's version. Only the jobs that save no step are ready without one. -/
theorem durable_step_applied {jobId : String} {jobType : JobType} {attempts : List Attempt}
    {start : State} {pool : Pool GoalCommand Unit State} (hstart : Queued jobId start)
    (hattempts : Attempts jobId jobType attempts) (hrun : GoalRun attempts start pool) :
    (passedTokens pool.shared.log).Nodup ∧ NoLaterCall pool.shared.log ∧
      ∀ job, pool.shared.job = some job → job.status = .ready →
        match job.durableStep with
        | some durable => pool.shared.Applied jobId durable
        | none => jobType.savesStep = false := by
  obtain ⟨holdings, -, h⟩ := goal_run_steps hstart hattempts hrun
  refine ⟨h.passed, h.quiet, fun job hjob hready => ?_⟩
  cases hdurable : job.durableStep with
  | some durable =>
    have hstores : pool.shared.Stores durable := ⟨job, durable, hjob, hdurable, .refl durable⟩
    obtain ⟨durable', hstores', happlied⟩ := h.ready job hjob hready (h.typed _ hstores)
    exact happlied.congr (hstores'.same hstores)
  | none =>
    cases hsaves : jobType.savesStep with
    | false => rfl
    | true =>
      obtain ⟨durable, ⟨job', stored, hjob', hstored, -⟩, -⟩ := h.ready job hjob hready hsaves
      rw [hjob] at hjob'
      obtain rfl := Option.some.inj hjob'
      rw [hdurable] at hstored
      cases hstored

/-! The first attempt at a plan pauses after it has written the goal, the second one recovers the
job and finishes the step, and the first one goes on. -/

theorem performed_answer (builders : Builders) {β : Type} (command : GoalCommand β) (s : State) :
    goalSemantics command s (answer builders command s).1 (answer builders command s).2 := by
  obtain ⟨attempt, command⟩ := command
  cases command with
  | send command =>
    cases command with
    | lease => exact ⟨rfl, .inl rfl⟩
    | passClaim => exact ⟨rfl, rfl⟩
    | upsertEvidence => exact rfl
    | upsertVersion version token => exact .inl ⟨builders, .answered⟩
    | build builder goal messages =>
      cases builder with
      | review =>
        refine ⟨s.goal.bind Goal.processingFence, s.versions, ?_⟩
        cases hgoal : s.goal <;> simp [answer, Remote.answer, run, State.record, hgoal]
      | clarify => exact rfl
      | baseline => exact rfl
      | plan => exact rfl
    | startJob | findJob | recoverJob | findGoal | findMessages | updateJob | updateGoal
    | upsertMessage | updateVersion | findVersion | insertVersion => exact ⟨builders, .answered⟩

def samplePlan : PlanBuilt where
  version := 1
  summary := "Run three times a week."
  recommendation := "Start on Monday."
  milestones := ["5 km"]
  days := ["Monday: 2 km"]
  gaps := "none"
  researchSummary := "none"
  validationReport := "accepted"
  measurementType := "MILESTONE"
  baselineValue := none
  targetValue := some "5"
  measurementDirection := none
  more := ""
  model := "m"

def sampleBuilders : Builders
  | .clarify => ⟨⟨"detail", "How far?", "text", [], [], ""⟩, [], "CLARIFYING", "m"⟩
  | .baseline => ⟨"You run.", ["runs"], "m"⟩
  | .plan => samplePlan
  | .review => ()

def sampleAttempts : List Attempt :=
  [⟨"g", "j", .plan, "w1", 5⟩, ⟨"g", "j", .plan, "w2", 9⟩]

def sampleStart : State where
  job := some { status := .queued, ownerId := "u" }
  goal := some { id := "g", ownerId := "u", status := "READY_FOR_PLAN" }

def sampleAfter (order : List Nat) : Pool GoalCommand Unit State :=
  (goalPool sampleAttempts sampleStart).turns (answer sampleBuilders) order

theorem sample_run {order : List Nat} : GoalRun sampleAttempts sampleStart (sampleAfter order) :=
  Pool.turns_reach (performed_answer _) order _

def sampleOrder : List Nat := .replicate 14 0 ++ .replicate 18 1 ++ .replicate 4 0

theorem sample_queued : Queued "j" sampleStart := ⟨⟨_, rfl, rfl, rfl⟩, nofun, rfl⟩

theorem sample_attempts : Attempts "j" .plan sampleAttempts := by
  refine ⟨?_, ?_, ?_⟩ <;> simp [sampleAttempts]

theorem durable_step_applied_sample :
    (sampleAfter sampleOrder).shared.log =
        [.stored 9, .passed 9, .stored 5, .called 5, .passed 5] ∧
      (sampleAfter sampleOrder).shared.job.map Job.status = some .ready ∧
      (passedTokens (sampleAfter sampleOrder).shared.log).Nodup ∧
      NoLaterCall (sampleAfter sampleOrder).shared.log ∧
      ∀ job, (sampleAfter sampleOrder).shared.job = some job → job.status = .ready →
        match job.durableStep with
        | some durable => (sampleAfter sampleOrder).shared.Applied "j" durable
        | none => JobType.plan.savesStep = false :=
  ⟨by decide +kernel, by decide +kernel,
    durable_step_applied sample_queued sample_attempts sample_run⟩

end AiBuddy.Goals
