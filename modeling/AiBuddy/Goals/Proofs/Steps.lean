import AiBuddy.Goals.Jobs

/-!
# One step for one job

The attempts at a goal job agree on one durable step. What an attempt knows of it lasts, whatever
the others write, because they write the same step.
-/

namespace AiBuddy.Goals

open Program

def DurableStep.Same (durable durable' : DurableStep) : Prop :=
  durable.step = durable'.step ∧ durable.plan = durable'.plan ∧
    Text.take 4000 durable.assistantText = Text.take 4000 durable'.assistantText

def State.Stores (s : State) (durable : DurableStep) : Prop :=
  ∃ job stored, s.job = some job ∧ job.durableStep = some stored ∧ stored.Same durable

def State.FencedFrom (s : State) (token : Int) : Prop :=
  ∃ job fence, s.job = some job ∧ job.status ≠ .queued ∧ job.processingFence = some fence ∧
    token ≤ fence

def State.Outruns (s : State) (token : Int) : Prop :=
  ∃ goal fence, s.goal = some goal ∧ goal.processingFence = some fence ∧ token < fence

def State.RowsHold (s : State) (durable : DurableStep) (newer : PlanVersion → Prop) : Prop :=
  ∀ plan row, durable.plan = some plan → s.version? (planVersionNumber plan) = some row →
    newer row ∨ row.plan = plan

def Newer (token : Int) (row : PlanVersion) : Prop :=
  ∃ fence, row.processingFence = some fence ∧ token < fence

inductive Progress where
  | stored
  | outrun
  | goalSet
  | messageSet
  | unmatched
  | probed
  | versionSet

inductive Stage where
  | free
  | seen
  | working
  /-- The write of `durableStep` came too late. -/
  | late
  | following (durable : DurableStep) (progress : Progress)

structure Holding where
  token : Int
  passed : Bool
  stage : Stage

def State.Reached (s : State) (jobId : String) (token : Int) (durable : DurableStep) :
    Progress → Prop
  | .stored => True
  | .outrun => s.Outruns token
  | .goalSet => s.GoalHolds durable
  | .messageSet => s.GoalHolds durable ∧ s.MessageHolds jobId durable
  | .unmatched => s.GoalHolds durable ∧ s.MessageHolds jobId durable ∧
      s.RowsHold durable (Newer token)
  | .probed => s.GoalHolds durable ∧ s.MessageHolds jobId durable ∧
      s.RowsHold durable fun _ => False
  | .versionSet => s.Applied jobId durable

def Holding.Knows (jobId : String) (s : State) (holding : Holding) : Prop :=
  match holding.stage with
  | .free => True
  | .seen => ∃ token, s.FencedFrom token
  | .working => s.FencedFrom holding.token ∧
      ∀ token, .stored token ∈ s.log → holding.token < token
  | .late => s.FencedFrom (holding.token + 1)
  | .following durable progress => s.Stores durable ∧
      s.Reached jobId holding.token durable progress

structure Steps (jobId : String) (jobType : JobType) (present : Bool) (holdings : List Holding)
    (s : State) : Prop where
  nodup : (holdings.map Holding.token).Nodup
  knows : ∀ holding ∈ holdings, holding.Knows jobId s
  fresh : ∀ holding ∈ holdings, holding.passed = false → .passed holding.token ∉ s.log
  passed : (passedTokens s.log).Nodup
  quiet : NoLaterCall s.log
  stored : ∀ token, .stored token ∈ s.log → s.FencedFrom token ∧ ∃ durable, s.Stores durable
  durable : ∀ durable, s.Stores durable → ∃ token, .stored token ∈ s.log
  typed : ∀ durable, s.Stores durable → jobType.savesStep = true
  messages : ∀ stepId,
    (s.messages.filter fun message => message.key = (jobId, stepId)).length ≤ 1
  ready : ∀ job, s.job = some job → job.status = .ready → jobType.savesStep = true →
    ∃ durable, s.Stores durable ∧ s.Applied jobId durable
  fenced : ∀ job, s.job = some job → job.status ≠ .queued →
    ∃ fence, job.processingFence = some fence
  present : s.goal.isSome = present

def Job.known (job : Job) : Stage :=
  match job.durableStep with
  | some durable => .following durable .stored
  | none => .working

variable {job : Job} {goal : Goal} {stage : Stage}

section Steps

variable {jobId : String} {jobType : JobType} {present : Bool} {holding holding' : Holding}
  {others holdings holdings' : List Holding} {s s' : State} {durable durable' : DurableStep}
  {token fence : Int} {progress : Progress} {log : List Entry} {entry : Entry}

theorem DurableStep.Same.refl (durable : DurableStep) : durable.Same durable := ⟨rfl, rfl, rfl⟩

theorem DurableStep.Same.symm (h : durable.Same durable') : durable'.Same durable :=
  ⟨h.1.symm, h.2.1.symm, h.2.2.symm⟩

theorem DurableStep.Same.trans {durable'' : DurableStep} (h : durable.Same durable')
    (h' : durable'.Same durable'') : durable.Same durable'' :=
  ⟨h.1.trans h'.1, h.2.1.trans h'.2.1, h.2.2.trans h'.2.2⟩

theorem State.Stores.same (h : s.Stores durable) (h' : s.Stores durable') :
    durable.Same durable' := by
  obtain ⟨job, stored, hjob, hstored, hsame⟩ := h
  obtain ⟨job', stored', hjob', hstored', hsame'⟩ := h'
  rw [hjob] at hjob'
  obtain rfl := Option.some.inj hjob'
  rw [hstored] at hstored'
  obtain rfl := Option.some.inj hstored'
  exact hsame.symm.trans hsame'

theorem take_take (limit : Nat) (text : String) :
    Text.take limit (Text.take limit text) = Text.take limit text := by
  simp [Text.take, List.take_take]

theorem State.Applied.congr (h : s.Applied jobId durable) (hsame : durable.Same durable') :
    s.Applied jobId durable' := by
  obtain ⟨hstep, hplan, htext⟩ := hsame
  obtain ⟨hgoal, hmessage, hversion⟩ := h
  unfold State.GoalHolds at hgoal
  unfold State.MessageHolds Message.Shows at hmessage
  unfold State.VersionHolds at hversion
  rw [hstep, hplan] at hgoal
  rw [hstep, htext] at hmessage
  rw [hplan] at hversion
  exact ⟨hgoal, hmessage, hversion⟩

structure Later (jobId : String) (s s' : State) : Prop where
  fence : ∀ token, s.FencedFrom token → s'.FencedFrom token
  stores : ∀ durable, s.Stores durable → s'.Stores durable
  outruns : ∀ durable token, s.Stores durable → s.Outruns token → s'.Outruns token
  goal : ∀ durable, s.Stores durable → s.GoalHolds durable → s'.GoalHolds durable
  message : ∀ durable, s.Stores durable → s.MessageHolds jobId durable →
    s'.MessageHolds jobId durable
  rows : ∀ durable newer, s.Stores durable → s.RowsHold durable newer → s'.RowsHold durable newer
  version : ∀ durable, s.Stores durable → s.VersionHolds durable → s'.VersionHolds durable

theorem Later.refl (s : State) : Later jobId s s :=
  ⟨fun _ h => h, fun _ h => h, fun _ _ _ h => h, fun _ _ h => h, fun _ _ h => h,
    fun _ _ _ h => h, fun _ _ h => h⟩

theorem Later.applied (h : Later jobId s s') (hstores : s.Stores durable)
    (happlied : s.Applied jobId durable) : s'.Applied jobId durable :=
  ⟨h.goal _ hstores happlied.goal, h.message _ hstores happlied.message,
    h.version _ hstores happlied.version⟩

theorem Later.reached (h : Later jobId s s') (hstores : s.Stores durable)
    (hreached : s.Reached jobId token durable progress) :
    s'.Reached jobId token durable progress := by
  cases progress with
  | stored => trivial
  | outrun => exact h.outruns _ _ hstores hreached
  | goalSet => exact h.goal _ hstores hreached
  | messageSet => exact ⟨h.goal _ hstores hreached.1, h.message _ hstores hreached.2⟩
  | unmatched =>
    exact ⟨h.goal _ hstores hreached.1, h.message _ hstores hreached.2.1,
      h.rows _ _ hstores hreached.2.2⟩
  | probed =>
    exact ⟨h.goal _ hstores hreached.1, h.message _ hstores hreached.2.1,
      h.rows _ _ hstores hreached.2.2⟩
  | versionSet => exact h.applied hstores hreached

theorem Holding.Knows.later (h : holding.Knows jobId s) (hlater : Later jobId s s')
    (hstored : holding.stage = .working → ∀ token, .stored token ∈ s'.log →
      .stored token ∈ s.log ∨ holding.token < token) : holding.Knows jobId s' := by
  obtain ⟨token, passed, stage⟩ := holding
  cases stage with
  | free => trivial
  | seen => exact ⟨_, hlater.fence _ h.choose_spec⟩
  | working =>
    refine ⟨hlater.fence _ h.1, fun token' hmem => ?_⟩
    rcases hstored rfl token' hmem with hwas | hlt
    · exact h.2 token' hwas
    · exact hlt
  | late => exact hlater.fence _ h
  | following durable progress => exact ⟨hlater.stores _ h.1, hlater.reached h.1 h.2⟩

theorem Later.of_record (entry : Entry) : Later jobId s (s.record entry) :=
  ⟨fun _ h => h, fun _ h => h, fun _ _ _ h => h, fun _ _ h => h, fun _ _ h => h,
    fun _ _ _ h => h, fun _ _ h => h⟩

theorem Later.of_job {job' : Job} (hjob : s.job = some job)
    (hfence : ∀ fence, job.status ≠ .queued → job.processingFence = some fence →
      job'.status ≠ .queued ∧ ∃ fence', job'.processingFence = some fence' ∧ fence ≤ fence')
    (hdurable : ∀ stored, job.durableStep = some stored → ∃ stored', job'.durableStep =
      some stored' ∧ stored'.Same stored) :
    Later jobId s (s.setJob job') := by
  refine ⟨?_, ?_, fun _ _ _ h => h, fun _ _ h => h, fun _ _ h => h, fun _ _ _ h => h,
    fun _ _ h => h⟩
  · rintro token ⟨old, fence, hold, hstatus, hseen, hle⟩
    rw [hjob] at hold
    obtain rfl := Option.some.inj hold
    obtain ⟨hstatus', fence', hfence', hle'⟩ := hfence fence hstatus hseen
    exact ⟨job', fence', rfl, hstatus', hfence', Int.le_trans hle hle'⟩
  · rintro durable ⟨old, stored, hold, hstored, hsame⟩
    rw [hjob] at hold
    obtain rfl := Option.some.inj hold
    obtain ⟨stored', hstored', hsame'⟩ := hdurable stored hstored
    exact ⟨job', stored', rfl, hstored', hsame'.trans hsame⟩

theorem Later.of_goal {update : GoalUpdate} (hgoal : s.goal = some goal)
    (hclause : fenceClause goal.processingFence token = true)
    (hstep : ∀ durable, update = .step durable → s.Stores durable) :
    Later jobId s (s.updateGoal token update goal) := by
  refine ⟨fun _ h => h, fun _ h => h, ?_, ?_, fun _ _ h => h, fun _ _ _ h => h, fun _ _ h => h⟩
  · rintro durable older - ⟨old, fence, hold, hfence, hlt⟩
    rw [hgoal] at hold
    obtain rfl := Option.some.inj hold
    rw [hfence] at hclause
    have hle : fence ≤ token := by simpa [fenceClause] using hclause
    exact ⟨_, token, rfl, rfl, by omega⟩
  · rintro durable hstores ⟨old, hold, hlatest, hplan⟩
    rw [hgoal] at hold
    obtain rfl := Option.some.inj hold
    cases update with
    | step durable' =>
      obtain ⟨hsame, hsamePlan, -⟩ := (hstep durable' rfl).same hstores
      refine ⟨_, rfl, congrArg some hsame, fun plan hhas => ?_⟩
      have hhas' : durable'.plan = some plan := hsamePlan.trans hhas
      simp [Goal.update, hhas']
    | patch draft => exact ⟨_, rfl, hlatest, hplan⟩
    | evidence operationId => exact ⟨_, rfl, hlatest, hplan⟩

theorem messageHolds_put
    (hmessages : (s.messages.filter fun message => message.key =
      (jobId, durable.step.stepId)).length ≤ 1)
    (hsame : durable'.Same durable) :
    (s.putMessage (stepMessage goal jobId durable')).MessageHolds jobId durable := by
  obtain ⟨hstep, -, htext⟩ := hsame
  have hkey : (stepMessage goal jobId durable').key = (jobId, durable.step.stepId) := by
    rw [← hstep]
    rfl
  refine ⟨stepMessage goal jobId durable', ?_, rfl, htext, ?_⟩
  · rw [← hkey] at hmessages ⊢
    exact Keyed.filter_replaceOrAppend_self hmessages
  · rw [← hstep]
    rfl

theorem Later.of_message (hstores : s.Stores durable) :
    Later jobId s (s.putMessage (stepMessage goal jobId durable)) := by
  refine ⟨fun _ h => h, fun _ h => h, fun _ _ _ h => h, fun _ _ h => h, ?_, fun _ _ _ h => h,
    fun _ _ h => h⟩
  rintro durable' hstores' ⟨message, hmessage, -⟩
  exact messageHolds_put (by rw [hmessage]; simp) (hstores.same hstores')

theorem State.version?_putVersion (s : State) (row : PlanVersion) (version : Int) :
    (s.putVersion row).version? version =
      if row.version = version then some row else s.version? version :=
  Keyed.find?_replaceOrAppend

theorem Later.of_version {row : PlanVersion} {plan : Plan} (hstores : s.Stores durable)
    (hhas : durable.plan = some plan) (hplan : row.plan = plan) :
    Later jobId s (s.putVersion row) := by
  refine ⟨fun _ h => h, fun _ h => h, fun _ _ _ h => h, fun _ _ h => h, fun _ _ h => h, ?_, ?_⟩
  · intro durable' newer hstores' hrows plan' found hhas' hfound
    obtain rfl : plan = plan' :=
      Option.some.inj (hhas.symm.trans ((hstores.same hstores').2.1.trans hhas'))
    rw [State.version?_putVersion] at hfound
    split at hfound
    · obtain rfl := Option.some.inj hfound
      exact .inr hplan
    · exact hrows plan found hhas' hfound
  · intro durable' hstores' hversion plan' hhas'
    obtain rfl : plan = plan' :=
      Option.some.inj (hhas.symm.trans ((hstores.same hstores').2.1.trans hhas'))
    rw [State.version?_putVersion]
    split
    · exact ⟨row, rfl, hplan⟩
    · exact hversion plan hhas'

theorem noLaterCall_cons (h : NoLaterCall log)
    (hentry : ∀ token, entry = .called token → ∀ token', .stored token' ∈ log → token < token') :
    NoLaterCall (entry :: log) := by
  intro newer token older token' hsplit hstored
  cases newer with
  | nil =>
    obtain ⟨rfl, rfl⟩ := List.cons.inj hsplit
    exact hentry token rfl token' hstored
  | cons _ newer => exact h newer token older token' (List.cons.inj hsplit).2 hstored

theorem mem_passedTokens : token ∈ passedTokens log ↔ .passed token ∈ log := by
  unfold passedTokens
  rw [List.mem_filterMap]
  constructor
  · rintro ⟨entry, hmem, hentry⟩
    cases entry with
    | passed token' =>
      obtain rfl := Option.some.inj hentry
      exact hmem
    | called token' => cases hentry
    | stored token' => cases hentry
  · exact fun hmem => ⟨_, hmem, rfl⟩

/-- What an attempt that comes from `holding` to `holding'` leaves in the log. -/
inductive Logs (jobType : JobType) (holding holding' : Holding) (s s' : State) : Prop where
  | silent (log : s'.log = s.log) (passed : holding'.passed = holding.passed)
      (back : ∀ durable, s'.Stores durable → ∃ durable', s.Stores durable')
  | passed (log : s'.log = .passed holding.token :: s.log) (before : holding.passed = false)
      (after : holding'.passed = true)
      (back : ∀ durable, s'.Stores durable → ∃ durable', s.Stores durable')
  | called (log : s'.log = .called holding.token :: s.log) (stage : holding.stage = .working)
      (passed : holding'.passed = holding.passed)
      (back : ∀ durable, s'.Stores durable → ∃ durable', s.Stores durable')
  | stored (log : s'.log = .stored holding.token :: s.log)
      (passed : holding'.passed = holding.passed) (fenced : s'.FencedFrom holding.token)
      (stores : ∃ durable, s'.Stores durable) (saves : jobType.savesStep = true)
      (below : ∀ token, s.FencedFrom token → token ≤ holding.token)

theorem Steps.perm (hperm : holdings.Perm holdings') (h : Steps jobId jobType present holdings s) :
    Steps jobId jobType present holdings' s :=
  { h with
    nodup := (hperm.map _).nodup_iff.mp h.nodup
    knows := fun holding hmem => h.knows holding (hperm.mem_iff.mpr hmem)
    fresh := fun holding hmem => h.fresh holding (hperm.mem_iff.mpr hmem) }

section

variable (h : Steps jobId jobType present (holding :: others) s)

include h

theorem Steps.sole : ∀ other ∈ others, other.token ≠ holding.token := by
  intro other hother hsame
  have hnodup := h.nodup
  rw [List.map_cons, List.nodup_cons] at hnodup
  exact hnodup.1 (hsame ▸ List.mem_map.mpr ⟨other, hother, rfl⟩)

theorem Steps.others_know (hlater : Later jobId s s') (hlogs : Logs jobType holding holding' s s') :
    ∀ other ∈ others, other.Knows jobId s' := by
  intro other hother
  have hknows := h.knows other (List.mem_cons_of_mem _ hother)
  refine hknows.later hlater fun hstage token hstored => ?_
  cases hlogs with
  | silent hlog => exact .inl (hlog ▸ hstored)
  | passed hlog => exact .inl (by simpa [hlog] using hstored)
  | called hlog => exact .inl (by simpa [hlog] using hstored)
  | stored hlog hpassed hfenced hstores hsaves hbelow =>
    rw [hlog] at hstored
    rcases List.mem_cons.mp hstored with hsame | hwas
    · right
      obtain rfl := Entry.stored.inj hsame
      obtain ⟨otherToken, otherPassed, stage⟩ := other
      obtain rfl : stage = .working := hstage
      exact Int.lt_iff_le_and_ne.mpr ⟨hbelow _ hknows.1, h.sole _ hother⟩
    · exact .inl hwas

theorem Steps.next (htoken : holding'.token = holding.token) (hlater : Later jobId s s')
    (hlogs : Logs jobType holding holding' s s') (hknows : holding'.Knows jobId s')
    (hmessages : ∀ stepId, (s'.messages.filter fun message => message.key =
      (jobId, stepId)).length ≤ 1)
    (hready : ∀ job, s'.job = some job → job.status = .ready → jobType.savesStep = true →
      ∃ durable, s'.Stores durable ∧ s'.Applied jobId durable)
    (hfenced : ∀ job, s'.job = some job → job.status ≠ .queued → ∃ fence, job.processingFence =
      some fence)
    (hpresent : s'.goal.isSome = s.goal.isSome) :
    Steps jobId jobType present (holding' :: others) s' := by
  have hmine := h.fresh holding List.mem_cons_self
  have hstored : ∀ token, .stored token ∈ s.log →
      s'.FencedFrom token ∧ ∃ durable, s'.Stores durable := by
    intro token hmem
    obtain ⟨hfenced, durable, hstores⟩ := h.stored token hmem
    exact ⟨hlater.fence _ hfenced, durable, hlater.stores _ hstores⟩
  refine ⟨?_, List.forall_mem_cons.mpr ⟨hknows, h.others_know hlater hlogs⟩, ?_, ?_, ?_, ?_, ?_,
    ?_, hmessages, hready, hfenced, hpresent.trans h.present⟩
  · rw [List.map_cons, htoken]
    exact h.nodup
  · have hothers : ∀ other ∈ others, other.passed = false → .passed other.token ∉ s.log :=
      fun other hother => h.fresh other (List.mem_cons_of_mem _ hother)
    refine List.forall_mem_cons.mpr ⟨?_, ?_⟩
    · rw [htoken]
      cases hlogs with
      | silent hlog hpassed => rw [hlog, hpassed]; exact hmine
      | passed hlog hbefore hafter => rw [hafter]; exact nofun
      | called hlog hstage hpassed => rw [hlog, hpassed]; simpa using hmine
      | stored hlog hpassed => rw [hlog, hpassed]; simpa using hmine
    · intro other hother hpassed
      have hfresh := hothers other hother hpassed
      cases hlogs with
      | silent hlog => rwa [hlog]
      | passed hlog => rw [hlog]; simpa [h.sole other hother] using hfresh
      | called hlog => rw [hlog]; simpa using hfresh
      | stored hlog => rw [hlog]; simpa using hfresh
  · cases hlogs with
    | silent hlog => rw [hlog]; exact h.passed
    | passed hlog hbefore =>
      rw [hlog]
      exact List.nodup_cons.mpr ⟨fun hmem => hmine hbefore (mem_passedTokens.mp hmem), h.passed⟩
    | called hlog => rw [hlog]; exact h.passed
    | stored hlog => rw [hlog]; exact h.passed
  · cases hlogs with
    | silent hlog => rw [hlog]; exact h.quiet
    | passed hlog => rw [hlog]; exact noLaterCall_cons h.quiet nofun
    | called hlog hstage =>
      rw [hlog]
      refine noLaterCall_cons h.quiet fun token hcalled => ?_
      obtain rfl := Entry.called.inj hcalled
      have hknew := h.knows holding List.mem_cons_self
      unfold Holding.Knows at hknew
      rw [hstage] at hknew
      exact hknew.2
    | stored hlog => rw [hlog]; exact noLaterCall_cons h.quiet nofun
  · intro token hmem
    cases hlogs with
    | silent hlog => exact hstored token (hlog ▸ hmem)
    | passed hlog => exact hstored token (by simpa [hlog] using hmem)
    | called hlog => exact hstored token (by simpa [hlog] using hmem)
    | stored hlog hpassed hfenced hstores =>
      rw [hlog] at hmem
      rcases List.mem_cons.mp hmem with hsame | hwas
      · obtain rfl := Entry.stored.inj hsame
        exact ⟨hfenced, hstores⟩
      · exact hstored token hwas
  · intro durable hstores
    cases hlogs with
    | silent hlog hpassed hback =>
      obtain ⟨durable', hstores'⟩ := hback durable hstores
      rw [hlog]
      exact h.durable _ hstores'
    | passed hlog hbefore hafter hback =>
      obtain ⟨durable', hstores'⟩ := hback durable hstores
      obtain ⟨token, hmem⟩ := h.durable _ hstores'
      exact ⟨token, by simp [hlog, hmem]⟩
    | called hlog hstage hpassed hback =>
      obtain ⟨durable', hstores'⟩ := hback durable hstores
      obtain ⟨token, hmem⟩ := h.durable _ hstores'
      exact ⟨token, by simp [hlog, hmem]⟩
    | stored hlog => exact ⟨holding.token, by simp [hlog]⟩
  · intro durable hstores
    cases hlogs with
    | silent hlog hpassed hback => exact h.typed _ (hback durable hstores).choose_spec
    | passed hlog hbefore hafter hback => exact h.typed _ (hback durable hstores).choose_spec
    | called hlog hstage hpassed hback => exact h.typed _ (hback durable hstores).choose_spec
    | stored hlog hpassed hfenced hstored hsaves => exact hsaves

end

theorem Steps.ready_later (h : Steps jobId jobType present holdings s) (hlater : Later jobId s s')
    (hback : ∀ job, s'.job = some job → job.status = .ready →
      ∃ job', s.job = some job' ∧ job'.status = .ready) :
    ∀ job, s'.job = some job → job.status = .ready → jobType.savesStep = true →
      ∃ durable, s'.Stores durable ∧ s'.Applied jobId durable := by
  intro job hjob hstatus hsaves
  obtain ⟨job', hjob', hstatus'⟩ := hback job hjob hstatus
  obtain ⟨durable, hstores, happlied⟩ := h.ready job' hjob' hstatus' hsaves
  exact ⟨durable, hlater.stores _ hstores, hlater.applied hstores happlied⟩

theorem Steps.learn (h : Steps jobId jobType present (holding :: others) s)
    (htoken : holding'.token = holding.token) (hpassed : holding'.passed = holding.passed)
    (hknows : holding'.Knows jobId s) : Steps jobId jobType present (holding' :: others) s :=
  h.next htoken (.refl s) (.silent rfl hpassed fun durable hstores => ⟨durable, hstores⟩) hknows
    h.messages h.ready h.fenced rfl

theorem Steps.write (h : Steps jobId jobType present (holding :: others) s)
    (htoken : holding'.token = holding.token) (hpassed : holding'.passed = holding.passed)
    (hlater : Later jobId s s') (hjob : s'.job = s.job) (hlog : s'.log = s.log)
    (hknows : holding'.Knows jobId s')
    (hmessages : ∀ stepId,
      (s'.messages.filter fun message => message.key = (jobId, stepId)).length ≤ 1)
    (hpresent : s'.goal.isSome = s.goal.isSome) :
    Steps jobId jobType present (holding' :: others) s' := by
  refine h.next htoken hlater (.silent hlog hpassed ?_) hknows hmessages
    (h.ready_later hlater ?_) ?_ hpresent
  · rintro durable ⟨job, stored, hstored⟩
    rw [hjob] at hstored
    exact ⟨durable, job, stored, hstored⟩
  · intro job hsome hstatus
    rw [hjob] at hsome
    exact ⟨job, hsome, hstatus⟩
  · rw [hjob]
    exact h.fenced

theorem fenceClause_le (h : fenceClause (some fence) token = true) : fence ≤ token := by
  simpa [fenceClause] using h

theorem State.FencedFrom.le_of_clause {token' : Int} (h : s.FencedFrom token')
    (hjob : s.job = some job) (hclause : fenceClause job.processingFence token = true) :
    token' ≤ token := by
  obtain ⟨job', fence, hjob', -, hfence, hle⟩ := h
  rw [hjob] at hjob'
  obtain rfl := Option.some.inj hjob'
  rw [hfence] at hclause
  exact Int.le_trans hle (fenceClause_le hclause)

theorem Steps.claim {owner : String} {attempts : Nat}
    (h : Steps jobId jobType present (⟨token, false, stage⟩ :: others) s)
    (hjob : s.job = some job)
    (hfence : ∀ fence, job.status ≠ .queued → job.processingFence = some fence → fence < token) :
    Steps jobId jobType present (⟨token, false, job.known⟩ :: others)
      (s.setJob { job with
        status := .running, processingOwner := owner, processingFence := some token,
        processingAttempt := attempts }) := by
  have hlater : Later jobId s (s.setJob { job with
      status := .running, processingOwner := owner, processingFence := some token,
      processingAttempt := attempts }) :=
    .of_job hjob
      (fun fence hstatus hseen => ⟨nofun, token, rfl, Int.le_of_lt (hfence fence hstatus hseen)⟩)
      fun stored hstored => ⟨stored, hstored, .refl stored⟩
  have hback : ∀ durable, (s.setJob { job with
      status := .running, processingOwner := owner, processingFence := some token,
      processingAttempt := attempts }).Stores durable → s.Stores durable := by
    rintro durable ⟨job', stored, hjob', hstored, hsame⟩
    obtain rfl := Option.some.inj hjob'
    exact ⟨job, stored, hjob, hstored, hsame⟩
  refine h.next rfl hlater (.silent rfl rfl fun durable hstores => ⟨durable, hback _ hstores⟩) ?_
    h.messages (h.ready_later hlater ?_) ?_ rfl
  · unfold Job.known
    cases hdurable : job.durableStep with
    | some durable => exact ⟨⟨_, durable, rfl, rfl, .refl durable⟩, trivial⟩
    | none =>
      refine ⟨⟨_, token, rfl, nofun, rfl, Int.le_refl token⟩, fun token' hmem => ?_⟩
      obtain ⟨-, durable, job', stored, hjob', hstored, -⟩ := h.stored token' hmem
      rw [hjob] at hjob'
      obtain rfl := Option.some.inj hjob'
      rw [hdurable] at hstored
      cases hstored
  · intro job' hjob' hready
    obtain rfl := Option.some.inj hjob'
    cases hready
  · intro job' hjob' _
    obtain rfl := Option.some.inj hjob'
    exact ⟨token, rfl⟩

theorem Steps.know {passed : Bool}
    (h : Steps jobId jobType present (⟨token, passed, stage⟩ :: others) s)
    (hjob : s.job = some job) (hstatus : job.status ≠ .queued)
    (hfence : job.processingFence = some token) :
    Steps jobId jobType present (⟨token, passed, job.known⟩ :: others) s := by
  refine h.learn rfl rfl ?_
  unfold Job.known
  cases hdurable : job.durableStep with
  | some durable => exact ⟨⟨job, durable, hjob, hdurable, .refl durable⟩, trivial⟩
  | none =>
    refine ⟨⟨job, token, hjob, hstatus, hfence, Int.le_refl token⟩, fun token' hmem => ?_⟩
    obtain ⟨-, durable, job', stored, hjob', hstored, -⟩ := h.stored token' hmem
    rw [hjob] at hjob'
    obtain rfl := Option.some.inj hjob'
    rw [hdurable] at hstored
    cases hstored

theorem stores_updateJob {stored : DurableStep} (hsame : stored.Same durable) :
    (s.updateJob token (.durableStep stored) job).Stores durable :=
  ⟨_, stored, rfl, rfl, hsame⟩

theorem later_updateJob {update : JobUpdate} (hjob : s.job = some job)
    (hclause : fenceClause job.processingFence token = true)
    (hstores : ∀ stored, update = .durableStep stored → ∀ durable, s.Stores durable →
      stored.Same durable) :
    Later jobId s (s.updateJob token update job) := by
  have hlater : Later jobId s (s.setJob { job.update update with processingFence := some token }) :=
    by
    refine .of_job hjob (fun fence hstatus hseen => ⟨?_, token, rfl, ?_⟩) fun stored hstored => ?_
    · cases update with
      | durableStep stored => exact hstatus
      | _ => exact nofun
    · rw [hseen] at hclause
      exact fenceClause_le hclause
    · cases update with
      | durableStep stored' =>
        exact ⟨stored', rfl, hstores stored' rfl stored ⟨job, stored, hjob, hstored, .refl stored⟩⟩
      | _ => exact ⟨stored, hstored, .refl stored⟩
  cases update with
  | durableStep stored =>
    exact ⟨hlater.fence, hlater.stores, hlater.outruns, hlater.goal, hlater.message, hlater.rows,
      hlater.version⟩
  | _ => exact hlater

def Stage.MayStore (jobType : JobType) (durable : DurableStep) : Stage → Prop
  | .working => jobType.savesStep = true
  | .following stored .stored => stored.Same durable
  | _ => False

theorem Steps.claimed {passed : Bool}
    (h : Steps jobId jobType present (⟨token, passed, stage⟩ :: others) s)
    (hstage : stage.MayStore jobType durable) :
    ∃ job fence, s.job = some job ∧ job.status ≠ .queued ∧ job.processingFence = some fence := by
  have hknew := h.knows _ List.mem_cons_self
  obtain ⟨token', job, fence, hjob, hstatus, hfence, -⟩ : ∃ token', s.FencedFrom token' := by
    match stage, hstage with
    | .working, _ => exact ⟨token, hknew.1⟩
    | .following durable₀ .stored, _ =>
      obtain ⟨token', hmem⟩ := h.durable _ hknew.1
      exact ⟨token', (h.stored token' hmem).1⟩
  exact ⟨job, fence, hjob, hstatus, hfence⟩

theorem Steps.store {stored : DurableStep}
    (h : Steps jobId jobType present (⟨token, true, stage⟩ :: others) s)
    (hstage : stage.MayStore jobType durable) (hjob : s.job = some job)
    (hclause : fenceClause job.processingFence token = true) (hsame : stored.Same durable) :
    Steps jobId jobType present (⟨token, true, .following durable .stored⟩ :: others)
      (s.updateJob token (.durableStep stored) job) := by
  have hknew := h.knows _ List.mem_cons_self
  have hbelow : ∀ token', s.FencedFrom token' → token' ≤ token :=
    fun token' hfenced => hfenced.le_of_clause hjob hclause
  have hstatus : job.status ≠ .queued := by
    obtain ⟨job', fence, hjob', hstatus, -⟩ := h.claimed hstage
    rw [hjob] at hjob'
    obtain rfl := Option.some.inj hjob'
    exact hstatus
  have hstores : ∀ durable', s.Stores durable' → stored.Same durable' := by
    intro durable' hstores'
    match stage, hstage with
    | .working, _ =>
      obtain ⟨token', hmem⟩ := h.durable _ hstores'
      have hlt : token < token' := hknew.2 token' hmem
      have hle := hbelow token' (h.stored token' hmem).1
      omega
    | .following durable₀ .stored, hfollows =>
      exact hsame.trans (hfollows.symm.trans (hknew.1.same hstores'))
  have hsaves : jobType.savesStep = true := by
    match stage, hstage with
    | .working, hsaves => exact hsaves
    | .following durable₀ .stored, _ => exact h.typed _ hknew.1
  have hlater : Later jobId s (s.updateJob token (.durableStep stored) job) :=
    later_updateJob hjob hclause fun stored' hstored' => by
      obtain rfl := JobUpdate.durableStep.inj hstored'
      exact hstores
  refine h.next rfl hlater (.stored rfl rfl ⟨_, token, rfl, hstatus, rfl, Int.le_refl token⟩
    ⟨durable, stores_updateJob hsame⟩ hsaves hbelow) ⟨stores_updateJob hsame, trivial⟩ h.messages
    (h.ready_later hlater ?_) ?_ rfl
  · intro job' hjob' hready
    obtain rfl := Option.some.inj hjob'
    exact ⟨job, hjob, hready⟩
  · intro job' hjob' _
    obtain rfl := Option.some.inj hjob'
    exact ⟨token, rfl⟩

theorem Steps.settle {update : JobUpdate} (h : Steps jobId jobType present (holding :: others) s)
    (hupdate : ∀ stored, update ≠ .durableStep stored) (hjob : s.job = some job)
    (hclause : fenceClause job.processingFence token = true)
    (hready : (job.update update).status = .ready → jobType.savesStep = true →
      ∃ durable, s.Stores durable ∧ s.Applied jobId durable) :
    Steps jobId jobType present (holding :: others) (s.updateJob token update job) := by
  have hlater : Later jobId s (s.updateJob token update job) :=
    later_updateJob hjob hclause fun stored hstored => absurd hstored (hupdate stored)
  have hdocs : s.updateJob token update job =
      s.setJob { job.update update with processingFence := some token } := by
    cases update with
    | durableStep stored => exact absurd rfl (hupdate stored)
    | _ => rfl
  have hdurable : (job.update update).durableStep = job.durableStep := by
    cases update with
    | durableStep stored => exact absurd rfl (hupdate stored)
    | _ => rfl
  rw [hdocs] at hlater ⊢
  have hlogs : Logs jobType holding holding s
      (s.setJob { job.update update with processingFence := some token }) := by
    refine .silent rfl rfl ?_
    rintro durable ⟨job', stored, hjob', hstored, hsame⟩
    obtain rfl := Option.some.inj hjob'
    exact ⟨durable, job, stored, hjob, hdurable ▸ hstored, hsame⟩
  refine h.next rfl hlater hlogs ?_ h.messages ?_ ?_ rfl
  · exact (h.knows _ List.mem_cons_self).later hlater fun _ token' hmem => .inl hmem
  · intro job' hjob' hstatus hsaves
    obtain rfl := Option.some.inj hjob'
    obtain ⟨durable, hstores, happlied⟩ := hready hstatus hsaves
    exact ⟨durable, hlater.stores _ hstores, hlater.applied hstores happlied⟩
  · intro job' hjob' _
    obtain rfl := Option.some.inj hjob'
    exact ⟨token, rfl⟩

end Steps

end AiBuddy.Goals
