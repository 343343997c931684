import AiBuddy.Goals.EvidenceJobs
import AiBuddy.Goals.Proofs.DurableStep
import Mathlib.Data.List.Dedup

/-!
# Evidence is counted exactly once

An operation is added by one guarded update, which a job issues for its own operation only. An
update that matches nothing, and finds no newer fence afterwards, was made before. What holds of
the database at every moment is `Sound`, and every command keeps it.
-/

namespace AiBuddy.Goals.Evidence

open Program

def Grows (db db' : Database) : Prop :=
  ∀ goalId doc, db.goals goalId = some doc → ∃ doc', db'.goals goalId = some doc' ∧
    doc.goal.appliedEvidenceOps ⊆ doc'.goal.appliedEvidenceOps ∧
    Later doc.goal.processingFence doc'.goal.processingFence

structure Sound (jobs : Jobs) (start db : Database) : Prop where
  settled : db.JobsSettled jobs
  rows : (db.evidence.map EvidenceRow.key).Nodup
  categories : ∀ row ∈ db.evidence, row.category = row.key.evidenceKey
  version : VersionCounts start db
  contributes : Contributes start db
  origin : ∀ entry ∈ db.counted, ∃ jobType, jobs entry.jobId = some (entry.goalId, jobType) ∧
    entry.operationId = operationId jobType entry.goalId entry.jobId ∧
    entry.operationId ∈ db.operations entry.goalId

def Keeps (jobs : Jobs) (start db db' : Database) : Prop :=
  Sound jobs start db → Sound jobs start db' ∧ Grows db db'

variable {operation : String}

section Relations

variable {jobs : Jobs} {start db db₁ db' : Database}

theorem Later.refl (fence : Option Int) : Later fence fence := fun _ h => h

theorem Later.trans {fence fence₁ fence' : Option Int} (h : Later fence fence₁)
    (h' : Later fence₁ fence') : Later fence fence' := fun token hclause =>
      h token (h' token hclause)

theorem later_of_clause {fence : Option Int} {token : Int}
    (h : fenceClause fence token = true) : Later fence (some token) := by
  intro token' hclause
  cases fence with
  | none => rfl
  | some stored =>
    simp only [fenceClause, Option.all_some, decide_eq_true_eq] at h hclause ⊢
    omega

theorem Grows.refl (db : Database) : Grows db db :=
  fun _ doc hdoc => ⟨doc, hdoc, List.Subset.refl _, .refl _⟩

theorem Grows.trans (h : Grows db db₁) (h' : Grows db₁ db') : Grows db db' := by
  intro goalId doc hdoc
  obtain ⟨doc₁, hdoc₁, hops, hfence⟩ := h goalId doc hdoc
  obtain ⟨doc', hdoc', hops', hfence'⟩ := h' goalId doc₁ hdoc₁
  exact ⟨doc', hdoc', List.Subset.trans hops hops', hfence.trans hfence'⟩

theorem Grows.isSome {goalId : String} (h : Grows db db')
    (hsome : (db.goals goalId).isSome = true) : (db'.goals goalId).isSome = true := by
  obtain ⟨doc, hdoc⟩ := Option.isSome_iff_exists.mp hsome
  obtain ⟨doc', hdoc', -⟩ := h goalId doc hdoc
  rw [hdoc']
  rfl

theorem operations_of_some {goalId : String} {doc : GoalDoc} (h : db.goals goalId = some doc) :
    db.operations goalId = doc.goal.appliedEvidenceOps := by
  rw [Database.operations, h]
  rfl

theorem operations_of_none {goalId : String} (h : db.goals goalId = none) :
    db.operations goalId = [] := by
  rw [Database.operations, h]
  rfl

theorem Grows.mem {goalId : String} (h : Grows db db') (hmem : operation ∈ db.operations goalId) :
    operation ∈ db'.operations goalId := by
  cases hdoc : db.goals goalId with
  | none =>
    rw [operations_of_none hdoc] at hmem
    cases hmem
  | some doc =>
    obtain ⟨doc', hdoc', hops, -⟩ := h goalId doc hdoc
    rw [operations_of_some hdoc] at hmem
    rw [operations_of_some hdoc']
    exact hops hmem

theorem Keeps.refl (db : Database) : Keeps jobs start db db := fun h => ⟨h, .refl db⟩

theorem Keeps.trans (h : Keeps jobs start db db₁) (h' : Keeps jobs start db₁ db') :
    Keeps jobs start db db' := by
  intro hsound
  obtain ⟨hsound₁, hgrows⟩ := h hsound
  obtain ⟨hsound', hgrows'⟩ := h' hsound₁
  exact ⟨hsound', hgrows.trans hgrows'⟩

theorem Starts.sound (h : Starts jobs start) : Sound jobs start start where
  settled := h.settled
  rows := h.rows
  categories := h.categories
  version := fun _ before hbefore => ⟨before, hbefore, rfl⟩
  contributes :=
    { operations := fun goalId => by rw [h.counted]; exact (List.append_nil _).symm
      jobs := by rw [h.counted]; exact List.nodup_nil }
  origin := by
    rw [h.counted]
    nofun

theorem Sound.countedOnce (h : Sound jobs start db) : CountedOnce jobs start db where
  version := h.version
  contributes := h.contributes
  rows := by
    have hsame : db.evidence.map EvidenceRow.identity = db.evidence.map EvidenceRow.key := by
      refine List.map_congr_left fun row hrow => ?_
      rw [EvidenceRow.identity, h.categories row hrow]
    rw [hsame]
    exact h.rows
  ready := by
    rintro jobId goalId jobType job hjob (rfl | rfl)
    · exact h.settled.applied jobId goalId .evidence job hjob rfl
    · exact h.settled.applied jobId goalId .review job hjob rfl

end Relations

/-! ## Writes to the documents -/

/-- A write adds operations to the goal and counts them, and a job that saves no step has none
afterwards if it had none. Such a job becomes ready only where `ready` holds. -/
structure Touches (saves : Bool) (ready : Prop) (added : List String) (s s' : State) : Prop where
  goal : ∀ goal, s.goal = some goal → ∃ goal', s'.goal = some goal' ∧
    goal'.appliedEvidenceOps = goal.appliedEvidenceOps ++ added ∧
    goal'.evidenceVersion = goal.evidenceVersion + added.length ∧
    Later goal.processingFence goal'.processingFence
  noGoal : s.goal = none → s'.goal = none
  job : saves = false → ∀ job', s'.job = some job' → ∃ job, s.job = some job ∧
    job'.durableStep = job.durableStep ∧ (job'.status = .ready → job.status = .ready ∨ ready)

theorem Touches.refl {saves : Bool} {ready : Prop} (s : State) : Touches saves ready [] s s where
  goal := fun goal hgoal => ⟨goal, hgoal, (List.append_nil _).symm, rfl, .refl _⟩
  noGoal := fun h => h
  job := fun _ job hjob => ⟨job, hjob, rfl, .inl⟩

theorem touches_of_eq {saves : Bool} {ready : Prop} {s s' : State} (hgoal : s'.goal = s.goal)
    (hjob : s'.job = s.job) : Touches saves ready [] s s' where
  goal := fun goal hsome => ⟨goal, hgoal.trans hsome, (List.append_nil _).symm, rfl, .refl _⟩
  noGoal := fun hnone => hgoal.trans hnone
  job := fun _ job hsome => ⟨job, hjob.symm.trans hsome, rfl, .inl⟩

variable {job : Job}

theorem touches_setJob {saves : Bool} {ready : Prop} {s : State} {job' : Job}
    (hsome : s.job = some job)
    (hjob : saves = false → job'.durableStep = job.durableStep ∧
      (job'.status = .ready → job.status = .ready ∨ ready)) :
    Touches saves ready [] s (s.setJob job') where
  goal := (Touches.refl s : Touches saves ready [] s s).goal
  noGoal := fun hnone => hnone
  job := by
    rintro hsaves _ ⟨rfl⟩
    exact ⟨job, hsome, hjob hsaves⟩

def Plain (saves : Bool) {α : Type} : Goals.Command α → Prop
  | .updateJob (.durableStep _) _ | .updateJob (.ready _) _ => saves = true
  | .updateJob .evidenceReady _ | .updateGoal (.evidence _) _ | .build .review _ _ => False
  | _ => True

theorem touches_updateJob {saves : Bool} {ready : Prop} {update : JobUpdate} {token : Int}
    {s : State} (hsome : s.job = some job)
    (hupdate : saves = false → (job.update update).durableStep = job.durableStep ∧
      ((job.update update).status = .ready → job.status = .ready ∨ ready)) :
    Touches saves ready [] s (s.updateJob token update job) := by
  have hset : Touches saves ready [] s
      (s.setJob { job.update update with processingFence := some token }) :=
    touches_setJob hsome hupdate
  cases update with
  | durableStep durable => exact ⟨hset.goal, hset.noGoal, hset.job⟩
  | ready model => exact hset
  | evidenceReady => exact hset
  | failed message => exact hset

theorem touches_updateGoal {saves : Bool} {ready : Prop} {update : GoalUpdate} {token : Int}
    {s : State} {goal : Goal} (hsome : s.goal = some goal)
    (hclause : fenceClause goal.processingFence token = true)
    (hupdate : ∀ operation, update ≠ .evidence operation) :
    Touches saves ready [] s (s.updateGoal token update goal) where
  goal := by
    intro stored hstored
    obtain rfl := Option.some.inj (hsome.symm.trans hstored)
    refine ⟨_, rfl, ?_, ?_, later_of_clause hclause⟩
    · cases update with
      | step durable => exact (List.append_nil _).symm
      | patch draft => exact (List.append_nil _).symm
      | evidence operation => exact absurd rfl (hupdate operation)
    · cases update with
      | step durable => rfl
      | patch draft => rfl
      | evidence operation => exact absurd rfl (hupdate operation)
  noGoal := fun hnone => by rw [hnone] at hsome; cases hsome
  job := (Touches.refl s : Touches saves ready [] s s).job

variable {builders : Builders}

theorem touches_run {saves : Bool} {ready : Prop} {α : Type} {command : Goals.Command α}
    (hplain : Plain saves command) {s : State} :
    Touches saves ready [] s (Goals.run builders 0 command s).2 := by
  cases command with
  | lease | findJob | findGoal | findMessages | upsertEvidence | findVersion => exact .refl s
  | passClaim | build | upsertMessage | upsertVersion => exact touches_of_eq rfl rfl
  | startJob owner token =>
    dsimp only [Goals.run]
    split
    · next job hsome =>
      split
      · refine touches_setJob hsome fun _ => ⟨rfl, ?_⟩
        rintro ⟨⟩
      · exact .refl s
    · exact .refl s
  | recoverJob seen owner token =>
    dsimp only [Goals.run]
    split
    · next job hsome =>
      split
      · exact touches_setJob hsome fun _ => ⟨rfl, .inl⟩
      · exact .refl s
    · exact .refl s
  | updateJob update token =>
    dsimp only [Goals.run]
    split
    · next job hsome =>
      split
      · refine touches_updateJob hsome fun hsaves => ?_
        cases update with
        | durableStep durable =>
          rw [show saves = true from hplain] at hsaves
          cases hsaves
        | ready model =>
          rw [show saves = true from hplain] at hsaves
          cases hsaves
        | evidenceReady => exact hplain.elim
        | failed message =>
          refine ⟨rfl, ?_⟩
          rintro ⟨⟩
      · exact .refl s
    · exact .refl s
  | updateGoal update token =>
    dsimp only [Goals.run]
    split
    · next goal hsome =>
      split
      · next haccepts =>
        refine touches_updateGoal hsome (Bool.and_eq_true_iff.mp haccepts).1 ?_
        rintro operation rfl
        exact hplain
      · exact .refl s
    · exact .refl s
  | updateVersion version token =>
    dsimp only [Goals.run]
    split
    · split
      · exact touches_of_eq rfl rfl
      · exact .refl s
    · exact .refl s
  | insertVersion version =>
    dsimp only [Goals.run]
    split
    · exact .refl s
    · exact touches_of_eq rfl rfl

theorem touches_answers {saves : Bool} {ready : Prop} {α : Type} {command : Goals.Command α}
    (hplain : Plain saves command) {s s' : State} {reply : Except Failure α}
    (h : Answers .exception (Goals.run builders 0 command) s reply s') :
    Touches saves ready [] s s' := by
  rcases h.state with rfl | rfl
  · exact .refl s'
  · exact touches_run hplain

theorem touches_performed {saves : Bool} {ready : Prop} {α : Type} {command : Goals.Command α}
    (hplain : Plain saves command) {s s' : State} {reply : Except Failure α}
    (h : Goals.Performed 0 command s reply s') : Touches saves ready [] s s' := by
  cases command with
  | lease =>
    obtain ⟨rfl, -⟩ := h
    exact .refl s'
  | passClaim =>
    obtain ⟨rfl, -⟩ := h
    exact touches_of_eq rfl rfl
  | build builder goal messages =>
    cases builder with
    | review => exact hplain.elim
    | clarify | baseline | plan =>
      cases h
      exact touches_of_eq rfl rfl
  | upsertEvidence =>
    cases h
    exact .refl s
  | upsertVersion version token =>
    rcases h with ⟨builders, hanswers⟩ | ⟨-, -, rfl⟩
    · exact touches_answers hplain hanswers
    · exact .refl s'
  | startJob | findJob | recoverJob | findGoal | findMessages | updateJob | updateGoal
  | upsertMessage | updateVersion | findVersion | insertVersion =>
    obtain ⟨builders, hanswers⟩ := h
    exact touches_answers hplain hanswers

/-! ## Writes to the database -/

section Put

variable {jobs : Jobs} {start db : Database} {goalId jobId : String} {jobType : JobType}
  {ready : Prop} {added : List String} {s : State}

theorem goals_put_of_ne {id : String} (h : id ≠ goalId) :
    (db.put goalId jobId s).goals id = db.goals id := if_neg h

theorem goals_put_some {doc : GoalDoc} {goal : Goal} (hdoc : db.goals goalId = some doc)
    (hgoal : s.goal = some goal) :
    (db.put goalId jobId s).goals goalId = some { doc with goal } := by
  refine (if_pos rfl).trans ?_
  rw [hdoc, hgoal]
  rfl

theorem goals_put_none (hdoc : db.goals goalId = none) :
    (db.put goalId jobId s).goals goalId = none := by
  refine (if_pos rfl).trans ?_
  rw [hdoc]
  rfl

section

variable (h : Touches jobType.savesStep ready added (db.view goalId jobId) s)

include h

theorem added_put : db.added goalId s = if (db.goals goalId).isSome then added else [] := by
  cases hdoc : db.goals goalId with
  | none =>
    have hnone : s.goal = none := h.noGoal (by rw [Database.view, hdoc]; rfl)
    rw [Database.added, hnone]
    exact List.drop_nil
  | some doc =>
    obtain ⟨goal, hgoal, hops, -⟩ := h.goal doc.goal (by rw [Database.view, hdoc]; rfl)
    rw [Database.added, hgoal, operations_of_some hdoc]
    exact (congrArg (List.drop _) hops).trans List.drop_left

theorem operations_put {id : String} :
    (db.put goalId jobId s).operations id =
      db.operations id ++ if id = goalId then db.added goalId s else [] := by
  by_cases hid : id = goalId
  · subst hid
    rw [if_pos rfl, added_put h]
    cases hdoc : db.goals id with
    | none => rw [operations_of_none (goals_put_none hdoc), operations_of_none hdoc]; rfl
    | some doc =>
      obtain ⟨goal, hgoal, hops, -⟩ := h.goal doc.goal (by rw [Database.view, hdoc]; rfl)
      rw [operations_of_some (goals_put_some hdoc hgoal), operations_of_some hdoc]
      exact hops
  · rw [if_neg hid, List.append_nil, Database.operations, goals_put_of_ne hid]
    rfl

theorem grows_put : Grows db (db.put goalId jobId s) := by
  intro id doc hdoc
  by_cases hid : id = goalId
  · subst hid
    obtain ⟨goal, hgoal, hops, -, hlater⟩ := h.goal doc.goal (by rw [Database.view, hdoc]; rfl)
    refine ⟨_, goals_put_some hdoc hgoal, ?_, hlater⟩
    show doc.goal.appliedEvidenceOps ⊆ goal.appliedEvidenceOps
    rw [hops]
    exact List.subset_append_left _ _
  · exact ⟨doc, (goals_put_of_ne hid).trans hdoc, List.Subset.refl _, .refl _⟩

end

theorem length_dedup_append {operations : List String} (h : operation ∉ operations) :
    (operations ++ [operation]).dedup.length = operations.dedup.length + 1 := by
  have hperm : (operations ++ [operation]).Perm (operation :: operations) :=
    List.perm_append_singleton operation operations
  rw [hperm.dedup.length_eq, List.dedup_cons_of_notMem h, List.length_cons]

def Fresh (jobs : Jobs) (db : Database) (jobId goalId : String) (added : List String) : Prop :=
  added = [] ∨ ∃ jobType, jobs jobId = some (goalId, jobType) ∧
    added = [operationId jobType goalId jobId] ∧
    operationId jobType goalId jobId ∉ db.operations goalId

theorem Fresh.entered (h : Touches jobType.savesStep ready added (db.view goalId jobId) s)
    (hfresh : Fresh jobs db jobId goalId added) :
    Fresh jobs db jobId goalId (db.added goalId s) := by
  rw [added_put h]
  split
  · exact hfresh
  · exact .inl rfl

theorem Sound.versionCounts_put (hsound : Sound jobs start db)
    (h : Touches jobType.savesStep ready added (db.view goalId jobId) s)
    (hfresh : Fresh jobs db jobId goalId added) :
    VersionCounts start (db.put goalId jobId s) := by
  intro id before hbefore
  obtain ⟨doc, hdoc, hversion⟩ := hsound.version id before hbefore
  by_cases hid : id = goalId
  · subst hid
    obtain ⟨goal, hgoal, hops, hcount, -⟩ := h.goal doc.goal (by rw [Database.view, hdoc]; rfl)
    refine ⟨_, goals_put_some hdoc hgoal, ?_⟩
    show goal.evidenceVersion + _ = _ + goal.appliedEvidenceOps.dedup.length
    rw [hops, hcount]
    rcases hfresh with rfl | ⟨_, -, rfl, hnew⟩
    · rw [List.append_nil]
      exact hversion
    · rw [operations_of_some hdoc] at hnew
      rw [length_dedup_append hnew, List.length_singleton]
      omega
  · exact ⟨doc, (goals_put_of_ne hid).trans hdoc, hversion⟩

theorem Sound.jobId_notMem (hsound : Sound jobs start db)
    (hjob : jobs jobId = some (goalId, jobType))
    (hnew : operationId jobType goalId jobId ∉ db.operations goalId) :
    jobId ∉ db.counted.map Counted.jobId := by
  intro hmem
  obtain ⟨entry, hentry, rfl⟩ := List.mem_map.mp hmem
  obtain ⟨jobType', hjob', hoperation, happlied⟩ := hsound.origin entry hentry
  rw [hjob'] at hjob
  obtain ⟨rfl, rfl⟩ := Prod.mk.inj (Option.some.inj hjob)
  rw [hoperation] at happlied
  exact hnew happlied

theorem Sound.contributes_put (hsound : Sound jobs start db)
    (h : Touches jobType.savesStep ready added (db.view goalId jobId) s)
    (hfresh : Fresh jobs db jobId goalId added) :
    Contributes start (db.put goalId jobId s) where
  operations := by
    intro id
    rw [operations_put h, hsound.contributes.operations id, List.append_assoc]
    show _ = _ ++ ((db.counted ++ _).filter _).map _
    rw [List.filter_append, List.map_append, List.filter_map, List.map_map]
    congr 2
    by_cases hid : id = goalId
    · subst hid
      rw [if_pos rfl]
      simp [Function.comp_def]
    · rw [if_neg hid]
      simp [Function.comp_def, Ne.symm hid]
  jobs := by
    show ((db.counted ++ _).map Counted.jobId).Nodup
    rcases hfresh.entered h with hnone | ⟨jobType', hjob, hsingle, hnew⟩
    · rw [hnone, List.map_nil, List.append_nil]
      exact hsound.contributes.jobs
    · rw [hsingle, List.map_append]
      exact List.nodup_append_comm.mp
        (hsound.contributes.jobs.cons (hsound.jobId_notMem hjob hnew))

theorem Sound.settled_put (hsound : Sound jobs start db)
    (hjob : jobs jobId = some (goalId, jobType))
    (h : Touches jobType.savesStep ready added (db.view goalId jobId) s)
    (hready : ready → operationId jobType goalId jobId ∈ db.operations goalId) :
    (db.put goalId jobId s).JobsSettled jobs where
  noStep := by
    intro id goal' type job hid hsaves hstored
    by_cases hsame : id = jobId
    · subst hsame
      obtain ⟨rfl, rfl⟩ := Prod.mk.inj (Option.some.inj (hid.symm.trans hjob))
      obtain ⟨before, hbefore, hstep, -⟩ := h.job hsaves job ((if_pos rfl).symm.trans hstored)
      exact hstep.trans (hsound.settled.noStep id _ _ before hid hsaves hbefore)
    · exact hsound.settled.noStep id _ _ job hid hsaves ((if_neg hsame).symm.trans hstored)
  applied := by
    intro id goal' type job hid hsaves hstored hstatus
    refine (grows_put h).mem ?_
    by_cases hsame : id = jobId
    · subst hsame
      obtain ⟨rfl, rfl⟩ := Prod.mk.inj (Option.some.inj (hid.symm.trans hjob))
      obtain ⟨before, hbefore, -, hbecame⟩ := h.job hsaves job ((if_pos rfl).symm.trans hstored)
      rcases hbecame hstatus with hwas | hholds
      · exact hsound.settled.applied id _ _ before hid hsaves hbefore hwas
      · exact hready hholds
    · exact hsound.settled.applied id _ _ job hid hsaves ((if_neg hsame).symm.trans hstored) hstatus

theorem keeps_put (hjob : jobs jobId = some (goalId, jobType))
    (h : Touches jobType.savesStep ready added (db.view goalId jobId) s)
    (hfresh : Fresh jobs db jobId goalId added)
    (hready : ready → operationId jobType goalId jobId ∈ db.operations goalId) :
    Keeps jobs start db (db.put goalId jobId s) := by
  intro hsound
  refine ⟨?_, grows_put h⟩
  exact
    { settled := hsound.settled_put hjob h hready
      rows := hsound.rows
      categories := hsound.categories
      version := hsound.versionCounts_put h hfresh
      contributes := hsound.contributes_put h hfresh
      origin := by
        intro entry hentry
        rcases List.mem_append.mp hentry with hold | hnew
        · obtain ⟨type, htype, hoperation, happlied⟩ := hsound.origin entry hold
          exact ⟨type, htype, hoperation, (grows_put h).mem happlied⟩
        · obtain ⟨operation, hoperation, rfl⟩ := List.mem_map.mp hnew
          rcases hfresh.entered h with hnone | ⟨type, htype, hsingle, -⟩
          · rw [hnone] at hoperation
            cases hoperation
          · have hmem : operation ∈ (db.put goalId jobId s).operations goalId := by
              rw [operations_put h, if_pos rfl]
              exact List.mem_append_right _ hoperation
            rw [hsingle] at hoperation
            exact ⟨type, htype, List.mem_singleton.mp hoperation, hmem⟩ }

end Put

/-! ## Commands -/

variable {row : EvidenceRow}

section Commands

variable {jobs : Jobs} {start : Database} {goalId jobId : String} {jobType : JobType}

def Free (jobs : Jobs) (start : Database) {β : Type} (command : Remote Failure Command β) : Prop :=
  ∀ db reply db', semantics command db reply db' → Keeps jobs start db db'

theorem free_plain (hjob : jobs jobId = some (goalId, jobType)) {α : Type}
    {command : Goals.Command α} (hplain : Plain jobType.savesStep command) :
    Free jobs start (.send (.document goalId jobId command)) := by
  rintro db reply _ ⟨s, hperformed, rfl⟩
  have htouches : Touches jobType.savesStep False [] (db.view goalId jobId) s :=
    touches_performed hplain hperformed
  exact keeps_put hjob htouches (.inl rfl) False.elim

theorem touches_count {saves : Bool} {ready : Prop} {token : Int} {s : State} {goal : Goal}
    (hsome : s.goal = some goal) (hclause : fenceClause goal.processingFence token = true) :
    Touches saves ready [operation] s (s.updateGoal token (.evidence operation) goal) where
  goal := by
    intro stored hstored
    obtain rfl := Option.some.inj (hsome.symm.trans hstored)
    exact ⟨_, rfl, rfl, rfl, later_of_clause hclause⟩
  noGoal := fun hnone => by rw [hnone] at hsome; cases hsome
  job := (Touches.refl s : Touches saves ready [] s s).job

theorem run_count {operation : String} {token : Int} {s : State} :
    (∃ goal, s.goal = some goal ∧ fenceClause goal.processingFence token = true ∧
        operation ∉ goal.appliedEvidenceOps ∧
        Goals.run builders 0 (.updateGoal (.evidence operation) token) s =
          (.ok 1, s.updateGoal token (.evidence operation) goal)) ∨
      Goals.run builders 0 (.updateGoal (.evidence operation) token) s = (.ok 0, s) ∧
        ∀ goal, s.goal = some goal →
          fenceClause goal.processingFence token = false ∨ operation ∈ goal.appliedEvidenceOps := by
  dsimp only [Goals.run]
  cases hgoal : s.goal with
  | none => exact .inr ⟨rfl, nofun⟩
  | some goal =>
    dsimp only
    by_cases haccepts : (fenceClause goal.processingFence token &&
        goal.accepts (.evidence operation)) = true
    · rw [if_pos haccepts]
      obtain ⟨hclause, hnew⟩ := Bool.and_eq_true_iff.mp haccepts
      exact .inl ⟨goal, rfl, hclause, of_decide_eq_true hnew, rfl⟩
    · rw [if_neg haccepts]
      refine .inr ⟨rfl, ?_⟩
      rintro _ ⟨rfl⟩
      rw [Bool.not_eq_true, Bool.and_eq_false_iff] at haccepts
      refine haccepts.imp_right fun hheld => ?_
      simpa [Goal.accepts] using hheld

theorem free_count (hjob : jobs jobId = some (goalId, jobType)) (token : Int) :
    Free jobs start (.send (.document goalId jobId
      (.updateGoal (.evidence (operationId jobType goalId jobId)) token))) := by
  rintro db reply _ ⟨s, ⟨builders, hanswers⟩, rfl⟩
  have hstay : Keeps jobs start db (db.put goalId jobId (db.view goalId jobId)) :=
    keeps_put hjob (Touches.refl _ : Touches jobType.savesStep False [] _ _) (.inl rfl) False.elim
  rcases hanswers.state with rfl | rfl
  · exact hstay
  · rcases run_count with
      ⟨goal, hgoal, hclause, hnew, hrun⟩ | ⟨hrun, -⟩
    · rw [hrun]
      have htouches : Touches jobType.savesStep False [operationId jobType goalId jobId]
          (db.view goalId jobId) _ := touches_count hgoal hclause
      refine keeps_put hjob htouches (.inr ⟨jobType, hjob, rfl, ?_⟩) False.elim
      obtain ⟨doc, hdoc, rfl⟩ := Option.map_eq_some_iff.mp hgoal
      rwa [operations_of_some hdoc]
    · rw [hrun]
      exact hstay

def Direct.Categorized {α : Type} : Direct α → Prop
  | .updateEvidence row _ | .upsertEvidence row _ => row.category = row.key.evidenceKey
  | _ => True

theorem keeps_putRow {db : Database} {token : Int}
    (hcategory : row.category = row.key.evidenceKey) :
    Keeps jobs start db (db.putRow row token) := by
  intro hsound
  refine ⟨?_, .refl db⟩
  exact
    { settled := ⟨hsound.settled.noStep, hsound.settled.applied⟩
      rows := Keyed.nodup_replaceOrAppend hsound.rows _
      categories := by
        intro stored hstored
        rcases Keyed.mem_replaceOrAppend hsound.rows hstored with rfl | ⟨hold, -⟩
        · exact hcategory
        · exact hsound.categories stored hold
      version := hsound.version
      contributes := ⟨hsound.contributes.operations, hsound.contributes.jobs⟩
      origin := hsound.origin }

theorem keeps_runDirect {α : Type} {baseline : Baseline} {command : Direct α}
    (hcategory : command.Categorized) {db : Database} :
    Keeps jobs start db (runDirect baseline command db).2 := by
  cases command with
  | findGoal | buildBaseline | buildReview | findEvidence => exact .refl db
  | updateEvidence row token =>
    dsimp only [runDirect]
    split
    · split
      · exact keeps_putRow hcategory
      · exact .refl db
    · exact .refl db
  | upsertEvidence row token => exact keeps_putRow hcategory

theorem keeps_goals {db : Database} {goals : String → Option GoalDoc}
    {versions : String → List PlanVersion}
    (hsome : ∀ id doc, db.goals id = some doc → ∃ doc', goals id = some doc' ∧
      doc'.goal.appliedEvidenceOps = doc.goal.appliedEvidenceOps ∧
      doc'.goal.evidenceVersion = doc.goal.evidenceVersion ∧
      Later doc.goal.processingFence doc'.goal.processingFence)
    (hnone : ∀ id, db.goals id = none → goals id = none) :
    Keeps jobs start db { db with goals, versions } := by
  intro hsound
  have hoperations : ∀ id,
      ({ db with goals, versions } : Database).operations id = db.operations id := by
    intro id
    cases hdoc : db.goals id with
    | none => rw [operations_of_none (hnone id hdoc), operations_of_none hdoc]
    | some doc =>
      obtain ⟨doc', hdoc', hops, -⟩ := hsome id doc hdoc
      rw [operations_of_some hdoc', operations_of_some hdoc, hops]
  refine ⟨?_, ?_⟩
  · exact
      { settled := ⟨hsound.settled.noStep,
        fun jobId goalId jobType job hjob hsaves hstored hready => by
          rw [hoperations]
          exact hsound.settled.applied jobId goalId jobType job hjob hsaves hstored hready⟩
        rows := hsound.rows
        categories := hsound.categories
        version := fun id before hbefore => by
          obtain ⟨doc, hdoc, hversion⟩ := hsound.version id before hbefore
          obtain ⟨doc', hdoc', hops, hsame, -⟩ := hsome id doc hdoc
          refine ⟨doc', hdoc', ?_⟩
          rw [hops, hsame, hversion]
        contributes :=
          ⟨fun id => (hoperations id).trans (hsound.contributes.operations id),
            hsound.contributes.jobs⟩
        origin := fun entry hentry => by
          rw [hoperations]
          exact hsound.origin entry hentry }
  · intro id doc hdoc
    obtain ⟨doc', hdoc', hops, -, hlater⟩ := hsome id doc hdoc
    exact ⟨doc', hdoc', hops ▸ List.Subset.refl _, hlater⟩

theorem keeps_reviewed {db db' : Database} (h : Reviewed goalId db db') :
    Keeps jobs start db db' := by
  obtain ⟨fence, milestones, versions, hlater, rfl⟩ := h
  refine keeps_goals (fun id doc hdoc => ?_) fun id hdoc => ?_
  · by_cases hid : id = goalId
    · subst hid
      rw [if_pos rfl, hdoc]
      exact ⟨_, rfl, rfl, rfl, hlater doc hdoc⟩
    · exact ⟨doc, (if_neg hid).trans hdoc, rfl, rfl, .refl _⟩
  · rw [hdoc]
    split <;> rfl

theorem free_direct {α : Type} {command : Direct α} (hcategory : command.Categorized) :
    Free jobs start (.send (.direct command)) := by
  intro db reply db' hperformed
  have hanswers : ∀ baseline, Answers .exception (runDirect baseline command) db reply db' →
      Keeps jobs start db db' := by
    intro baseline hanswers
    rcases hanswers.state with rfl | rfl
    · exact .refl db'
    · exact keeps_runDirect hcategory
  cases command with
  | buildBaseline goal =>
    cases hperformed
    exact .refl db
  | buildReview goalId =>
    rcases hperformed with rfl | hreviewed
    · exact .refl db'
    · exact keeps_reviewed hreviewed
  | upsertEvidence row token =>
    rcases hperformed with ⟨baseline, h⟩ | ⟨-, -, rfl⟩
    · exact hanswers baseline h
    · exact .refl db'
  | findGoal | updateEvidence | findEvidence =>
    obtain ⟨baseline, h⟩ := hperformed
    exact hanswers baseline h

end Commands

/-! ## Functions on the documents -/

section Documents

variable {saves : Bool} {token : Int} {α β : Type}

def PlainRemote (saves : Bool) {β : Type} : Remote Failure Goals.Command β → Prop
  | .send command => Plain saves command

abbrev PlainProg (saves : Bool) (prog : Working α) : Prop := prog.run.Issues (PlainRemote saves)

theorem plain_send {command : Goals.Command α} (h : Plain saves command) :
    PlainProg saves (Goals.send command) := Issues.send h

theorem plain_bind {prog : Working α} {f : α → Working β} (h : PlainProg saves prog)
    (hnext : ∀ value, PlainProg saves (f value)) : PlainProg saves (prog >>= f) :=
  Issues.raising_bind h hnext

theorem plain_pure {value : α} : PlainProg saves (pure value : Working α) := trivial

theorem plain_throw {error : Failure} : PlainProg saves (throw error : Working α) := trivial

theorem issues_rejectIfNewer {allowed : ∀ {β : Type}, Remote Failure Goals.Command β → Prop}
    {δ : Type} {probe : Goals.Command (Option δ)} {fence : δ → Option Int}
    (hprobe : allowed (.send probe)) :
    (Goals.rejectIfNewer probe fence token).run.Issues allowed := by
  refine Issues.raising_bind (Issues.send hprobe) fun found => ?_
  cases found with
  | none => trivial
  | some doc =>
    dsimp only
    split <;> trivial

theorem issues_fencedUpdateOne {allowed : ∀ {β : Type}, Remote Failure Goals.Command β → Prop}
    {δ : Type} {update : Goals.Command Nat} {probe : Goals.Command (Option δ)}
    {fence : δ → Option Int} (hlease : allowed (.send .lease)) (hupdate : allowed (.send update))
    (hprobe : allowed (.send probe)) :
    (fencedUpdateOne update probe fence token).run.Issues allowed := by
  refine Issues.raising_bind (Issues.send hlease) fun _ =>
    Issues.raising_bind (Issues.send hupdate) fun matched => ?_
  split
  · trivial
  · exact issues_rejectIfNewer hprobe

theorem plain_updateJob {update : JobUpdate} (h : Plain saves (.updateJob update token)) :
    PlainProg saves (updateJob update token) := issues_fencedUpdateOne trivial h trivial

theorem plain_updateGoal {update : GoalUpdate} (h : Plain saves (.updateGoal update token)) :
    PlainProg saves (updateGoal update token) := issues_fencedUpdateOne trivial h trivial

theorem plain_fail {message : String} : PlainProg saves (fail message token) :=
  plain_bind (plain_send trivial) fun _ => plain_updateJob trivial

theorem plain_upsertVersion {version : PlanVersion} :
    PlainProg saves (upsertVersion version token) := by
  refine plain_bind (plain_send trivial) fun _ => plain_bind (plain_send trivial) fun matched => ?_
  dsimp only
  split
  · exact plain_pure
  · refine plain_bind (issues_rejectIfNewer trivial) fun _ =>
      Issues.attempt_bind (plain_send trivial) fun outcome => ?_
    cases outcome with
    | ok value => exact plain_pure
    | error error =>
      dsimp only
      split
      · exact plain_bind (issues_rejectIfNewer trivial) fun _ => plain_throw
      · exact plain_throw

theorem plain_savePlanVersion {goal : Goal} {jobId : String} {plan : Plan} :
    PlainProg saves (savePlanVersion goal jobId plan token) := by
  refine Issues.attempt_bind plain_upsertVersion fun outcome => ?_
  cases outcome with
  | ok value => exact plain_pure
  | error error =>
    cases error with
    | duplicateKey =>
      refine plain_bind (plain_send trivial) fun existing =>
        plain_bind (plain_send trivial) fun _ => ?_
      cases existing with
      | none => exact plain_pure
      | some existing =>
        dsimp only
        split
        · exact plain_throw
        · exact plain_pure
    | staleOwnership | leavePending | nonRetryable | exception => exact plain_throw

theorem plain_saveStep {jobId : String} {step : DurableStep} :
    PlainProg true (saveStep jobId step token) := by
  refine plain_bind (plain_send trivial) fun _ => plain_bind (plain_send trivial) fun found => ?_
  have hready : Plain true (.updateJob (.ready step.model) token) := rfl
  cases found with
  | none => exact plain_pure
  | some goal =>
    refine plain_bind (plain_updateJob rfl) fun _ => plain_bind (plain_updateGoal trivial) fun _ =>
      plain_bind (plain_send trivial) fun _ => ?_
    dsimp only
    split
    · exact plain_bind plain_savePlanVersion fun _ => plain_updateJob hready
    · exact plain_updateJob hready

theorem plain_claimAgain : PlainProg saves (claimAgain token) := by
  refine plain_bind (plain_send trivial) fun again => ?_
  cases again with
  | none => exact plain_pure
  | some again =>
    dsimp only
    split
    · exact plain_pure
    · split
      · exact plain_pure
      · split <;> exact plain_pure

theorem plain_claim (owner : String) : PlainProg saves (claim owner token) := by
  refine plain_bind (plain_send trivial) fun _ => plain_bind (plain_send trivial) fun started => ?_
  cases started with
  | some started => exact plain_pure
  | none =>
    refine plain_bind (plain_send trivial) fun existing => ?_
    cases existing with
    | none => exact plain_pure
    | some existing =>
      dsimp only
      split
      · exact plain_pure
      · split
        · exact plain_pure
        · split
          · exact plain_pure
          · refine plain_bind (plain_send trivial) fun recovered => ?_
            cases recovered with
            | some recovered => exact plain_pure
            | none => exact plain_claimAgain
      · exact plain_pure

theorem plain_reconcile {goalId jobId : String} {job : Job} :
    PlainProg saves (reconcileMissingPlanVersion goalId jobId job) := by
  unfold reconcileMissingPlanVersion
  dsimp only
  split
  · exact plain_pure
  · split
    · exact plain_pure
    · refine plain_bind (plain_send trivial) fun found => ?_
      cases found with
      | some found => exact plain_pure
      | none =>
        refine Issues.attempt_bind (plain_send trivial) fun outcome => ?_
        cases outcome with
        | ok inserted => exact plain_pure
        | error error =>
          cases error with
          | duplicateKey => exact plain_pure
          | staleOwnership | leavePending | nonRetryable | exception => exact plain_throw

theorem plain_clarify {attempt : Goals.Attempt} {goal : Goal} :
    PlainProg true (attempt.clarify goal) :=
  plain_bind (plain_send trivial) fun _ => plain_bind (plain_send trivial) fun _ =>
    plain_saveStep

theorem plain_plan {attempt : Goals.Attempt} {goal : Goal} :
    PlainProg true (attempt.plan goal) := by
  refine plain_bind (plain_send trivial) fun _ => plain_bind (plain_updateGoal trivial) fun _ =>
    plain_bind (plain_send trivial) fun built => ?_
  dsimp only
  split
  · exact plain_bind plain_fail fun _ => plain_throw
  · exact plain_saveStep

end Documents

/-! ## Attempts -/

section Attempts

variable {jobs : Jobs} {start db : Database} {attempt : Attempt} {α β : Type}

abbrev FreeProg (jobs : Jobs) (start : Database) (prog : Storing α) : Prop :=
  prog.run.Issues fun command => Free jobs start command

theorem free_send {command : Direct α} (hcategory : command.Categorized) :
    FreeProg jobs start (send command) := Issues.send (free_direct hcategory)

theorem free_onDocuments (hat : attempt.At jobs) {prog : Working α}
    (h : PlainProg attempt.jobType.savesStep prog) :
    FreeProg jobs start (attempt.onDocuments prog) := by
  refine Issues.hoist h ?_
  rintro _ ⟨command⟩ hplain
  exact free_plain hat hplain

theorem free_countEvidence (hat : attempt.At jobs) : FreeProg jobs start attempt.countEvidence := by
  have hissues : (updateGoal (.evidence attempt.operation) attempt.token).run.Issues fun command =>
      Free jobs start (toDocument attempt.goalId attempt.jobId command) :=
    issues_fencedUpdateOne (free_plain hat trivial) (free_count hat attempt.token)
      (free_plain hat trivial)
  exact Issues.hoist hissues fun _ hfree => hfree

theorem free_rejectIfNewer {key : EvidenceKey} {token : Int} :
    FreeProg jobs start (rejectIfNewer key token) := by
  refine Issues.raising_bind (free_send trivial) fun found => ?_
  cases found with
  | none => trivial
  | some row =>
    dsimp only
    split <;> trivial

section

variable (hat : attempt.At jobs)

include hat

theorem free_fencedUpsert (hcategory : row.category = row.key.evidenceKey) :
    FreeProg jobs start (attempt.fencedUpsert row) := by
  refine Issues.raising_bind (free_onDocuments hat (plain_send trivial)) fun _ =>
    Issues.raising_bind (free_send hcategory) fun matched => ?_
  dsimp only
  split
  · trivial
  · refine Issues.raising_bind free_rejectIfNewer fun _ =>
      Issues.attempt_bind (free_send hcategory) fun outcome => ?_
    cases outcome with
    | ok value => trivial
    | error error =>
      dsimp only
      split
      · exact Issues.raising_bind free_rejectIfNewer fun _ => trivial
      · trivial

theorem free_storeEvidence (hcategory : row.category = row.key.evidenceKey) :
    FreeProg jobs start (attempt.storeEvidence row) := by
  refine Issues.attempt_bind (free_fencedUpsert hat hcategory) fun outcome => ?_
  rcases outcome with (error | value)
  · cases error <;> trivial
  · trivial

theorem free_storeRows {goal : GoalDoc} {findings : List Finding} :
    FreeProg jobs start (attempt.storeRows goal findings) := by
  induction findings with
  | nil => trivial
  | cons finding findings ih =>
    rw [Attempt.storeRows]
    split
    · exact Issues.raising_bind (free_storeEvidence hat rfl) fun _ => ih
    · exact ih

theorem free_baseline (htype : attempt.jobType = .baseline) {goal : GoalDoc} :
    FreeProg jobs start (attempt.baseline goal) := by
  have hsave : ∀ built, FreeProg jobs start
      (attempt.onDocuments (saveStep attempt.jobId (Attempt.step built) attempt.token)) := by
    intro built
    refine free_onDocuments hat ?_
    rw [htype]
    exact plain_saveStep
  refine Issues.raising_bind (free_send trivial) fun built => Issues.raising_bind ?_ fun _ =>
    hsave built
  refine Issues.raising_bind (free_storeRows hat) fun _ => ?_
  split
  · exact free_countEvidence hat
  · trivial

theorem free_work (hsaves : attempt.jobType.savesStep = true) (goal : GoalDoc) :
    FreeProg jobs start (attempt.work goal) := by
  unfold Attempt.work
  split
  · next htype => exact free_baseline hat htype
  · next htype => rw [htype] at hsaves; cases hsaves
  · next htype => rw [htype] at hsaves; cases hsaves
  · exact free_onDocuments hat (hsaves ▸ plain_plan)
  · exact free_onDocuments hat (hsaves ▸ plain_plan)
  · exact free_onDocuments hat (hsaves ▸ plain_clarify)

theorem free_fail {message : String} :
    FreeProg jobs start (attempt.onDocuments (fail message attempt.token)) :=
  free_onDocuments hat plain_fail

theorem free_after (outcome : Except Failure Unit) :
    FreeProg jobs start (match outcome with
      | .ok _ => return ()
      | .error (.nonRetryable message) => throw (.nonRetryable message)
      | .error (.staleOwnership reason) => throw (.staleOwnership reason)
      | .error .leavePending => throw .leavePending
      | .error _ => attempt.onDocuments (fail "The goal step failed. Try again." attempt.token)) :=
        by
  rcases outcome with (error | value)
  · cases error with
    | nonRetryable | staleOwnership | leavePending => trivial
    | duplicateKey | exception => exact free_fail hat
  · trivial

theorem free_handle (hsaves : attempt.jobType.savesStep = true) :
    FreeProg jobs start attempt.handle := by
  have hproceed : ∀ job, FreeProg jobs start (attempt.proceed job) := by
    intro job
    unfold Attempt.proceed
    split
    · exact free_onDocuments hat (hsaves ▸ plain_saveStep)
    · refine Issues.raising_bind (free_send trivial) fun found => ?_
      cases found with
      | none => exact Issues.raising_bind (free_fail hat) fun _ => trivial
      | some goal => exact Issues.attempt_bind (free_work hat hsaves goal) (free_after hat)
  refine Issues.raising_bind (free_onDocuments hat (plain_claim _)) fun claim => ?_
  cases claim with
  | missing | busy | terminal => trivial
  | done job =>
    exact Issues.raising_bind (free_onDocuments hat plain_reconcile) fun _ => trivial
  | owned job | claimed job | recovered job => exact hproceed job

end

/-! ## Jobs that save no step -/

abbrev Safely (jobs : Jobs) (start : Database) (post : Except Failure α → Database → Prop)
    (prog : Storing α) (db : Database) : Prop :=
  Safe semantics (Keeps jobs start) (fun _ => Keeps jobs start) post prog.run db

theorem safely_free {prog : Storing α} (h : FreeProg jobs start prog)
    (hsound : Sound jobs start db) :
    Safely jobs start (fun _ db' => Sound jobs start db' ∧ Grows db db') prog db := by
  have hsafe : Safely jobs start (fun _ db' => Keeps jobs start db db') prog db :=
    Issues.safe_along .refl (fun _ _ _ => .trans) (fun _ _ h => h)
      (fun _ s reply s' hfree hstep => ⟨hfree s reply s' hstep, hfree s reply s' hstep⟩) h db
  exact hsafe.mono fun _ db' hkeeps => hkeeps hsound

def DocumentPerformed (attempt : Attempt) {β : Type} (command : Goals.Command β) (db : Database)
    (reply : Except Failure β) (db' : Database) : Prop :=
  Performed (.document attempt.goalId attempt.jobId command) db reply db'

abbrev SafelyOn (jobs : Jobs) (start : Database) (attempt : Attempt)
    (post : Except Failure α → Database → Prop) (prog : Working α) (db : Database) : Prop :=
  Safe (Remote.semantics (DocumentPerformed attempt)) (Keeps jobs start)
    (fun _ => Keeps jobs start) post prog.run db

theorem safely_onDocuments {post : Except Failure α → Database → Prop} {prog : Working α}
    (h : SafelyOn jobs start attempt post prog db) :
    Safely jobs start post (attempt.onDocuments prog) db := by
  refine Safe.hoist ?_ (fun _ _ _ hkeeps => hkeeps) h
  rintro _ ⟨command⟩ s reply s' hperformed
  exact hperformed

/-- One command on the documents and what follows it, where the database grows no further than
`known` goes. -/
theorem safelyOn_send_bind {command : Goals.Command α} {f : α → Working β}
    {post : Except Failure β → Database → Prop} {known : Database → Prop}
    (hstable : ∀ db db', Grows db db' → known db → known db')
    (hkeeps : ∀ db reply db', Sound jobs start db → known db →
      DocumentPerformed attempt command db reply db' → Keeps jobs start db db')
    (hsound : Sound jobs start db) (hknown : known db)
    (hok : ∀ db₁ value db', Sound jobs start db₁ → known db₁ →
      DocumentPerformed attempt command db₁ (.ok value) db' → Sound jobs start db' → Grows db₁ db' →
      SafelyOn jobs start attempt post (f value) db')
    (herror : ∀ error db', Sound jobs start db' → post (.error error) db') :
    SafelyOn jobs start attempt post (Goals.send command >>= f) db := by
  refine Safe.send_bind fun db₁ reply db' hrely hstep => ?_
  obtain ⟨hsound₁, hgrows⟩ := hrely hsound
  have hknown₁ := hstable db db₁ hgrows hknown
  have hstepKeeps := hkeeps db₁ reply db' hsound₁ hknown₁ hstep
  obtain ⟨hsound', hgrows'⟩ := hstepKeeps hsound₁
  refine ⟨hstepKeeps, ?_, fun error _ => herror error db' hsound'⟩
  rintro value rfl
  exact hok db₁ value db' hsound₁ hknown₁ hstep hsound' hgrows'

theorem keeps_plain (hat : attempt.At jobs) {command : Goals.Command α}
    (hplain : Plain attempt.jobType.savesStep command) {db db' : Database}
    {reply : Except Failure α} (h : DocumentPerformed attempt command db reply db') :
    Keeps jobs start db db' := free_plain hat hplain db reply db' h

theorem job_of_start {owner : String} {token : Int} {s s' : State}
    (h : Goals.Performed 0 (.startJob owner token) s (.ok (some job)) s') : s.job = some job := by
  obtain ⟨builders, hanswers⟩ := h
  have hrun := hanswers.of_ok
  dsimp only [Goals.run] at hrun
  split at hrun
  · next stored hstored =>
    split at hrun
    · obtain ⟨hsame, -⟩ := Prod.mk.inj hrun
      exact hstored.trans (Except.ok.inj hsame)
    · cases hrun
  · cases hrun

theorem job_of_find {s s' : State} (h : Goals.Performed 0 .findJob s (.ok (some job)) s') :
    s.job = some job := by
  obtain ⟨builders, hanswers⟩ := h
  exact Except.ok.inj (Prod.mk.inj hanswers.of_ok).1

theorem job_of_recover {owner : String} {seen : Option Int} {token : Int} {s s' : State}
    (h : Goals.Performed 0 (.recoverJob seen owner token) s (.ok (some job)) s') :
    s.job = some job := by
  obtain ⟨builders, hanswers⟩ := h
  have hrun := hanswers.of_ok
  dsimp only [Goals.run] at hrun
  split at hrun
  · next stored hstored =>
    split at hrun
    · obtain ⟨hsame, -⟩ := Prod.mk.inj hrun
      exact hstored.trans (Except.ok.inj hsame)
    · cases hrun
  · cases hrun

/-- The job with which `handle` goes on. -/
def goesOn : Claim → Option Job
  | .owned job | .claimed job | .recovered job => some job
  | _ => none

abbrev ClaimedBare (jobs : Jobs) (start : Database) (outcome : Except Failure Claim)
    (db : Database) : Prop :=
  Sound jobs start db ∧
    ∀ claim job, outcome = .ok claim → goesOn claim = some job → job.durableStep = none

theorem safelyOn_claim (hat : attempt.At jobs) (hsaves : attempt.jobType.savesStep = false)
    (hsound : Sound jobs start db) :
    SafelyOn jobs start attempt (ClaimedBare jobs start) (claim attempt.owner attempt.token)
      db := by
  have hbare : ∀ {db job}, Sound jobs start db →
      (db.view attempt.goalId attempt.jobId).job = some job → job.durableStep = none :=
    fun hsound hjob => hsound.settled.noStep _ _ _ _ hat hsaves hjob
  have hret : ∀ {db claim}, Sound jobs start db →
      (∀ job, goesOn claim = some job → job.durableStep = none) →
      SafelyOn jobs start attempt (ClaimedBare jobs start) (pure claim) db := by
    intro db claim hsound hclaim
    refine ⟨hsound, ?_⟩
    rintro _ job ⟨rfl⟩ hgoes
    exact hclaim job hgoes
  have hstop : ∀ {db claim}, Sound jobs start db → goesOn claim = none →
      SafelyOn jobs start attempt (ClaimedBare jobs start) (pure claim) db :=
    fun hsound hclaim => hret hsound fun job hjob => nomatch hclaim.symm.trans hjob
  -- A command after which nothing is known but its answer.
  have hsend : ∀ {α : Type} {command : Goals.Command α} {f : α → Working Claim} {db},
      Plain attempt.jobType.savesStep command → Sound jobs start db →
      (∀ db₁ value s, Sound jobs start db₁ →
        Goals.Performed 0 command (db₁.view attempt.goalId attempt.jobId) (.ok value) s →
        ∀ db', Sound jobs start db' →
          SafelyOn jobs start attempt (ClaimedBare jobs start) (f value) db') →
      SafelyOn jobs start attempt (ClaimedBare jobs start) (Goals.send command >>= f) db := by
    intro α command f db hplain hsound hnext
    refine safelyOn_send_bind (fun _ _ _ _ => trivial)
      (fun _ _ _ _ _ hperformed => keeps_plain hat hplain hperformed) hsound trivial ?_ ?_
    · rintro db₁ value _ hsound₁ - ⟨s, hperformed, rfl⟩ hsound' -
      exact hnext db₁ value s hsound₁ hperformed _ hsound'
    · rintro error db' hsound'
      refine ⟨hsound', fun claim job hclaim => ?_⟩
      cases hclaim
  refine hsend trivial hsound fun _ _ _ _ _ db hsound => ?_
  refine hsend trivial hsound fun db₁ started s hsound₁ hstarted db hsound => ?_
  cases started with
  | some started =>
    refine hret hsound ?_
    rintro job ⟨rfl⟩
    exact hbare hsound₁ (job_of_start hstarted)
  | none =>
    refine hsend trivial hsound fun db₁ existing s hsound₁ hfound db hsound => ?_
    cases existing with
    | none => exact hstop hsound rfl
    | some existing =>
      dsimp only
      split
      · exact hstop hsound rfl
      · split
        · exact hstop hsound rfl
        · split
          · refine hret hsound ?_
            rintro job ⟨rfl⟩
            exact hbare hsound₁ (job_of_find hfound)
          · refine hsend trivial hsound fun db₁ recovered s hsound₁ hrecovered db hsound => ?_
            cases recovered with
            | some recovered =>
              refine hret hsound ?_
              rintro job ⟨rfl⟩
              exact hbare hsound₁ (job_of_recover hrecovered)
            | none =>
              refine hsend trivial hsound fun db₁ again s hsound₁ hagain db hsound => ?_
              cases again with
              | none => exact hstop hsound rfl
              | some again =>
                dsimp only
                split
                · exact hstop hsound rfl
                · split
                  · exact hstop hsound rfl
                  · split
                    · refine hret hsound ?_
                      rintro job ⟨rfl⟩
                      exact hbare hsound₁ (job_of_find hagain)
                    · exact hstop hsound rfl
      · exact hstop hsound rfl

def AppliedOrFenced (attempt : Attempt) (db : Database) : Prop :=
  attempt.operation ∈ db.operations attempt.goalId ∨
    ∃ doc, db.goals attempt.goalId = some doc ∧
      fenceClause doc.goal.processingFence attempt.token = false

theorem AppliedOrFenced.grows {db db' : Database} (hgrows : Grows db db')
    (h : AppliedOrFenced attempt db) : AppliedOrFenced attempt db' := by
  rcases h with hmem | ⟨doc, hdoc, hfenced⟩
  · exact .inl (hgrows.mem hmem)
  · obtain ⟨doc', hdoc', -, hlater⟩ := hgrows _ doc hdoc
    refine .inr ⟨doc', hdoc', ?_⟩
    rw [← Bool.not_eq_true] at hfenced ⊢
    exact fun hclause => hfenced (hlater attempt.token hclause)

theorem appliedOrFenced_of_count {db db' : Database} {matched : Nat}
    (hgoal : (db.goals attempt.goalId).isSome = true)
    (h : DocumentPerformed attempt (.updateGoal (.evidence attempt.operation) attempt.token) db
      (.ok matched) db') :
    if matched > 0 then attempt.operation ∈ db'.operations attempt.goalId
    else AppliedOrFenced attempt db' := by
  obtain ⟨s, ⟨builders, hanswers⟩, rfl⟩ := h
  obtain ⟨doc, hdoc⟩ := Option.isSome_iff_exists.mp hgoal
  have hview : (db.view attempt.goalId attempt.jobId).goal = some doc.goal := by
    rw [Database.view, hdoc]
    rfl
  have hrun := hanswers.of_ok
  rcases run_count with ⟨goal, hsome, hclause, -, hlands⟩ | ⟨hmisses, hwhy⟩
  · obtain ⟨hmatched, rfl⟩ := Prod.mk.inj (hlands.symm.trans hrun)
    obtain rfl := Except.ok.inj hmatched
    rw [if_pos Nat.one_pos, operations_of_some (goals_put_some hdoc rfl)]
    exact List.mem_append_right _ List.mem_cons_self
  · obtain ⟨hmatched, rfl⟩ := Prod.mk.inj (hmisses.symm.trans hrun)
    obtain rfl := Except.ok.inj hmatched
    rw [if_neg (Nat.lt_irrefl 0)]
    have hput : (db.put attempt.goalId attempt.jobId _).goals attempt.goalId = _ :=
      goals_put_some hdoc hview
    rcases hwhy doc.goal hview with hfenced | hmem
    · exact .inr ⟨_, hput, hfenced⟩
    · refine .inl ?_
      rw [operations_of_some hput]
      exact hmem

section

variable (hat : attempt.At jobs)

include hat

theorem safelyOn_countEvidence (hsound : Sound jobs start db)
    (hgoal : (db.goals attempt.goalId).isSome = true) :
    SafelyOn jobs start attempt
      (fun outcome db' => Sound jobs start db' ∧
        (outcome = .ok () → attempt.operation ∈ db'.operations attempt.goalId))
      (updateGoal (.evidence attempt.operation) attempt.token) db := by
  have herror : ∀ (error : Failure) (db' : Database), Sound jobs start db' →
      Sound jobs start db' ∧ ((.error error : Except Failure Unit) = .ok () →
        attempt.operation ∈ db'.operations attempt.goalId) := by
    intro error db' hsound'
    refine ⟨hsound', fun hok => ?_⟩
    cases hok
  have hpresent : ∀ db db', Grows db db' → (db.goals attempt.goalId).isSome = true →
      (db'.goals attempt.goalId).isSome = true := fun _ _ hgrows hsome => hgrows.isSome hsome
  refine safelyOn_send_bind hpresent
    (fun _ _ _ _ _ h => keeps_plain hat (by trivial) h) hsound hgoal ?_ herror
  intro _ _ db₁ _ hsome _ hsound₁ hgrows
  refine safelyOn_send_bind hpresent
    (fun db₂ reply db' _ _ h => free_count hat attempt.token db₂ reply db' h) hsound₁
    (hgrows.isSome hsome) ?_ herror
  intro db₂ matched db₃ _ hsome₂ hcount hsound₃ hgrows₃
  have hmatched := appliedOrFenced_of_count hsome₂ hcount
  split
  · next hpos =>
    rw [if_pos hpos] at hmatched
    exact ⟨hsound₃, fun _ => hmatched⟩
  · next hzero =>
    rw [if_neg hzero] at hmatched
    refine safelyOn_send_bind (fun _ _ => AppliedOrFenced.grows)
      (fun _ _ _ _ _ h => keeps_plain hat (by trivial) h) hsound₃ hmatched ?_ herror
    rintro db₄ found db₅ hsound₄ hknown ⟨s, ⟨builders, hanswers⟩, rfl⟩ hsound₅ hgrows₅
    obtain ⟨hfound, -⟩ := Prod.mk.inj hanswers.of_ok
    obtain rfl := Except.ok.inj hfound
    rcases hknown with hmem | ⟨doc, hdoc, hfenced⟩
    · -- The operation is there, whatever the probe has found.
      cases (db₄.view attempt.goalId attempt.jobId).goal with
      | none => exact ⟨hsound₅, fun _ => hgrows₅.mem hmem⟩
      | some goal =>
        dsimp only
        split
        · exact herror _ _ hsound₅
        · exact ⟨hsound₅, fun _ => hgrows₅.mem hmem⟩
    · have hview : (db₄.view attempt.goalId attempt.jobId).goal = some doc.goal := by
        rw [Database.view, hdoc]
        rfl
      rw [hview]
      dsimp only
      rw [if_pos ?_]
      · exact herror _ _ hsound₅
      · cases hfence : doc.goal.processingFence with
        | none =>
          rw [hfence] at hfenced
          cases hfenced
        | some fence =>
          rw [hfence] at hfenced
          exact Int.not_le.mp (of_decide_eq_false hfenced)

theorem safelyOn_ready (hsound : Sound jobs start db)
    (happlied : attempt.operation ∈ db.operations attempt.goalId) :
    SafelyOn jobs start attempt (fun _ db' => Sound jobs start db')
      (updateJob .evidenceReady attempt.token) db := by
  have hstable : ∀ db db', Grows db db' → attempt.operation ∈ db.operations attempt.goalId →
      attempt.operation ∈ db'.operations attempt.goalId := fun _ _ hgrows hmem => hgrows.mem hmem
  refine safelyOn_send_bind hstable (fun _ _ _ _ _ h => keeps_plain hat (by trivial) h) hsound
    happlied
    ?_ (fun _ _ hsound' => hsound')
  intro _ _ db₁ _ hmem _ hsound₁ hgrows
  refine safelyOn_send_bind hstable ?_ hsound₁ (hgrows.mem hmem) ?_ (fun _ _ hsound' => hsound')
  · rintro db₂ reply _ - hmem₂ ⟨s, ⟨builders, hanswers⟩, rfl⟩
    have htouches : Touches attempt.jobType.savesStep True []
        (db₂.view attempt.goalId attempt.jobId) s := by
      rcases hanswers.state with rfl | rfl
      · exact .refl _
      · dsimp only [Goals.run]
        split
        · next job hjob =>
          split
          · have hset : Touches attempt.jobType.savesStep True []
                (db₂.view attempt.goalId attempt.jobId)
                ((db₂.view attempt.goalId attempt.jobId).updateJob attempt.token .evidenceReady
                  job) :=
              touches_updateJob hjob fun _ => ⟨rfl, fun _ => .inr trivial⟩
            exact hset
          · exact .refl _
        · exact .refl _
    exact keeps_put hat htouches (.inl rfl) fun _ => hmem₂
  · intro db₂ matched db₃ _ _ _ hsound₃ _
    split
    · exact hsound₃
    · refine safelyOn_send_bind (fun _ _ _ _ => trivial)
        (fun _ _ _ _ _ h => keeps_plain hat (by trivial) h) hsound₃ trivial ?_
        (fun _ _ hsound' => hsound')
      intro _ found _ _ _ _ hsound₅ _
      cases found with
      | none => exact hsound₅
      | some job =>
        dsimp only
        split <;> exact hsound₅

theorem safely_count_then_ready (hsound : Sound jobs start db)
    (hgoal : (db.goals attempt.goalId).isSome = true) :
    Safely jobs start (fun _ db' => Sound jobs start db')
      (do attempt.countEvidence
          attempt.onDocuments (updateJob .evidenceReady attempt.token)) db :=
  Safe.then (safely_onDocuments (safelyOn_countEvidence hat hsound hgoal))
    (fun _ _ h => safely_onDocuments (safelyOn_ready hat h.1 (h.2 rfl)))
    (fun _ _ h => h.1)

theorem safely_work (hsaves : attempt.jobType.savesStep = false) {goal : GoalDoc}
    (hsound : Sound jobs start db) (hgoal : (db.goals attempt.goalId).isSome = true) :
    Safely jobs start (fun _ db' => Sound jobs start db') (attempt.work goal) db := by
  unfold Attempt.work
  split
  · next htype => rw [htype] at hsaves; cases hsaves
  · exact Safe.then (safely_free (free_storeEvidence hat rfl) hsound)
      (fun _ _ h => safely_count_then_ready hat h.1 (h.2.isSome hgoal)) (fun _ _ h => h.1)
  · refine Safe.then (safely_free (free_onDocuments hat (plain_send trivial)) hsound)
      (fun _ _ h => ?_) (fun _ _ h => h.1)
    exact Safe.then (safely_free (free_send trivial) h.1)
      (fun _ _ h' => safely_count_then_ready hat h'.1 (h'.2.isSome (h.2.isSome hgoal)))
      (fun _ _ h' => h'.1)
  · next htype => rw [htype] at hsaves; cases hsaves
  · next htype => rw [htype] at hsaves; cases hsaves
  · next htype => rw [htype] at hsaves; cases hsaves

theorem safely_proceed (hsaves : attempt.jobType.savesStep = false)
    (hstep : job.durableStep = none) (hsound : Sound jobs start db) :
    Safely jobs start (fun _ db' => Sound jobs start db') (attempt.proceed job) db := by
  unfold Attempt.proceed
  rw [hstep]
  refine Safe.send_bind fun db₁ reply db' hrely hstep => ?_
  obtain ⟨hsound₁, -⟩ := hrely hsound
  have hcategory : Direct.Categorized (.findGoal attempt.goalId) := trivial
  have hkeeps : Keeps jobs start db₁ db' := free_direct hcategory db₁ reply db' hstep
  obtain ⟨hsound', -⟩ := hkeeps hsound₁
  refine ⟨hkeeps, ?_, fun _ _ => hsound'⟩
  rintro found rfl
  cases found with
  | none =>
    have hfree : FreeProg jobs start (do
        attempt.onDocuments (fail "Goal not found." attempt.token)
        throw (.nonRetryable ("goal not found: " ++ attempt.goalId)) : Storing Unit) :=
      Issues.raising_bind (free_fail hat) fun _ => trivial
    exact (safely_free hfree hsound').mono fun _ _ h => h.1
  | some goal =>
    obtain ⟨baseline, hanswers⟩ := hstep
    obtain ⟨hfound, rfl⟩ := Prod.mk.inj hanswers.of_ok
    have hgoal : (db₁.goals attempt.goalId).isSome = true := by
      rw [Except.ok.inj hfound]
      rfl
    refine Safe.attempt_bind ((safely_work hat hsaves hsound' hgoal).mono ?_)
    intro outcome db₂ hsound₂
    exact (safely_free (free_after hat outcome) hsound₂).mono fun _ _ h => h.1

theorem safely_handle (hsound : Sound jobs start db) :
    Safely jobs start (fun _ _ => True) attempt.handle db := by
  cases hsaves : attempt.jobType.savesStep with
  | true => exact (safely_free (free_handle hat hsaves) hsound).mono fun _ _ _ => trivial
  | false =>
    refine Safe.then (safely_onDocuments (safelyOn_claim hat hsaves hsound)) ?_
      (fun _ _ _ => trivial)
    rintro claim db' ⟨hsound', hbare⟩
    have hgoes : ∀ job, goesOn claim = some job →
        Safely jobs start (fun _ _ => True) (attempt.proceed job) db' := fun job hjob =>
      (safely_proceed hat hsaves (hbare claim job rfl hjob) hsound').mono fun _ _ _ => trivial
    cases claim with
    | missing | busy | terminal => trivial
    | done job =>
      have hfree : FreeProg jobs start (do
          let _ ← attempt.onDocuments
            (reconcileMissingPlanVersion attempt.goalId attempt.jobId job)) :=
        Issues.raising_bind (free_onDocuments hat plain_reconcile) fun _ => trivial
      exact (safely_free hfree hsound').mono fun _ _ _ => trivial
    | owned job | claimed job | recovered job => exact hgoes job rfl

end

end Attempts

/-- Evidence is counted exactly once: at every moment of every run, a goal's version has grown by
the number of its new operations, each job has contributed at most one, every row of evidence has
its own key, and the operation of an evidence or review job that is ready has been applied. -/
theorem evidence_counted_once {jobs : Jobs} {start : Database} (hstart : Starts jobs start)
    {pool : Pool (Remote Failure Command) (Except Failure Unit) Database}
    (hrun : EvidenceRun jobs start pool) : CountedOnce jobs start pool.shared := by
  have hmoment : Sound jobs start pool.shared ∧ Keeps jobs start pool.shared pool.shared :=
    Pool.Run.invariant (Sound jobs start) (fun _ => Keeps jobs start)
      (fun _ _ _ => .trans) .refl (fun _ _ _ hnone => hnone.elim)
      (fun _ _ _ hsound hkeeps => ⟨hkeeps, (hkeeps hsound).1⟩)
      (fun _ _ hsound ⟨_, hat, hprog⟩ => hprog ▸ safely_handle hat hsound)
      hstart.sound hrun .refl
  exact hmoment.1.countedOnce

/-! An attempt at an evidence job stops after it has written its row, and the next one recovers the
job and finishes it. -/

theorem performed_answered (builders : Builders) (baseline : Baseline) {β : Type}
    (command : Remote Failure Command β) (db : Database) :
    semantics command db (Remote.answer (run builders baseline) command db).1
      (Remote.answer (run builders baseline) command db).2 := by
  obtain ⟨command⟩ := command
  cases command with
  | document goalId jobId command =>
    exact ⟨_, performed_answer builders ⟨0, .send command⟩ (db.view goalId jobId), rfl⟩
  | direct command =>
    cases command with
    | buildBaseline goal => exact rfl
    | buildReview goalId => exact .inl rfl
    | upsertEvidence row token => exact .inl ⟨baseline, .answered⟩
    | findGoal | updateEvidence | findEvidence => exact ⟨baseline, .answered⟩

def sampleJobs : Jobs := fun jobId => if jobId = "e" then some ("g", .evidence) else none

def sampleGoal : GoalDoc where
  goal :=
    { id := "g", ownerId := "u", status := "ACTIVE",
      appliedEvidenceOps := ["baseline:g:b"], evidenceVersion := 4 }
  approvedMilestones := ["Run"]

def sampleDatabase : Database where
  goals := fun goalId => if goalId = "g" then some sampleGoal else none
  jobs := fun jobId => if jobId = "e" then some { status := .queued } else none

def sampleAttempt (token : Int) : Attempt where
  goalId := "g"
  jobId := "e"
  jobType := .evidence
  token
  payload := { title := "Run 5 km", status := "completed", sourceId := "t" }

def sampleEnd : Pool (Remote Failure Command) (Except Failure Unit) Database :=
  Pool.turns (Remote.answer (run sampleBuilders ⟨"", [], ""⟩))
    (.replicate 7 0 ++ .replicate 11 1)
    ⟨[(sampleAttempt 5).handle.run, (sampleAttempt 9).handle.run], sampleDatabase⟩

theorem sampleDatabase_starts : Starts sampleJobs sampleDatabase where
  settled := by
    constructor
    · intro jobId goalId jobType job hjob _ hstored
      unfold sampleDatabase at hstored
      dsimp only at hstored
      split at hstored
      · cases hstored
        rfl
      · cases hstored
    · intro jobId goalId jobType job hjob _ hstored hready
      unfold sampleDatabase at hstored
      dsimp only at hstored
      split at hstored
      · cases hstored
        cases hready
      · cases hstored
  rows := List.nodup_nil
  categories := nofun
  counted := rfl

theorem sampleEnd_run : EvidenceRun sampleJobs sampleDatabase sampleEnd := by
  have hspawned : EvidenceRun sampleJobs sampleDatabase
      ⟨[(sampleAttempt 5).handle.run, (sampleAttempt 9).handle.run], sampleDatabase⟩ :=
    .tail (.single (.spawn ⟨sampleAttempt 9, rfl, rfl⟩)) (.spawn ⟨sampleAttempt 5, rfl, rfl⟩)
  exact hspawned.trans (Pool.turns_reach (performed_answered _ _) _ _)

theorem evidence_counted_once_sample :
    (sampleEnd.shared.jobs "e").map Job.status = some .ready ∧
      sampleEnd.shared.operations "g" = ["baseline:g:b", "space-evidence:g:e"] ∧
      (sampleEnd.shared.goals "g").map (fun doc => doc.goal.evidenceVersion) = some 5 ∧
      sampleEnd.shared.evidence.map (fun row => (row.text, row.milestoneTitle)) =
        [("Space task “Run 5 km” was completed.", "Run")] ∧
      CountedOnce sampleJobs sampleDatabase sampleEnd.shared :=
  ⟨by decide +kernel, by decide +kernel, by decide +kernel, by decide +kernel,
    evidence_counted_once sampleDatabase_starts sampleEnd_run⟩

end AiBuddy.Goals.Evidence
