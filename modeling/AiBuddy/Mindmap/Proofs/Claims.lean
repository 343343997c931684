import AiBuddy.Queue.MongoFence.Proofs.Writes
import AiBuddy.Mindmap.Jobs

/-!
# Claims and the commands of a store

A condition that holds of every read and of the write of a method holds of every command of the
method.
-/

namespace AiBuddy.Mindmap

open Mongo Program Queue.JobLease Queue.MongoFence Reminders

variable {allowed : ∀ {β : Type}, ItemCommand β → Prop} {kind : Kind} {ids : List Value}

theorem issues_mongo {α : Type} {command : Mongo.Command α} (h : allowed (.mongo command)) :
    (mongo command).run.Issues allowed := ⟨h, fun _ => trivial⟩

theorem issues_utcNow (h : allowed ItemCommand.utcNow) : utcNow.run.Issues allowed :=
  ⟨h, fun _ => trivial⟩

theorem issues_raising {α : Type} (outcome : Except HandleError α) :
    (raising outcome).run.Issues allowed := trivial

theorem issues_claim {jobId : String} (hfind : allowed (.mongo (.findOne (idFilter ids))))
    (hnow : allowed ItemCommand.utcNow)
    (hclaim : ∀ claimedAt updatedAt, allowed (.mongo (.findOneAndUpdate (claimFilter kind ids)
      (claimUpdate jobId (.int claimedAt) (.int updatedAt)) false true))) :
    (claim kind ids jobId).run.Issues allowed := by
  have hclock : utcNow.run.Issues allowed := issues_utcNow hnow
  refine Issues.raising_bind (Issues.raising_bind (issues_mongo hfind) fun _ => trivial)
    fun found => ?_
  cases found with
  | none => trivial
  | some existing =>
    dsimp only
    split
    · trivial
    · refine Issues.raising_bind hclock fun now => ?_
      split
      · trivial
      · refine Issues.raising_bind hclock fun claimedAt =>
          Issues.raising_bind hclock fun updatedAt =>
            Issues.raising_bind (issues_mongo (hclaim claimedAt updatedAt)) fun updated => ?_
        cases updated <;> trivial

theorem issues_updateProgress {progress : Progress} (hnow : allowed ItemCommand.utcNow)
    (hwrite : ∀ updatedAt claimedAt, allowed (.mongo (.findOneAndUpdate (idFilter ids)
      { set := progress.updates updatedAt claimedAt } false true))) :
    (updateProgress ids progress).run.Issues allowed := by
  refine Issues.raising_bind (issues_utcNow hnow) fun updatedAt => ?_
  dsimp only
  split
  · exact Issues.raising_bind (issues_utcNow hnow) fun claimedAt => issues_mongo (hwrite _ _)
  · exact issues_mongo (hwrite _ _)

theorem issues_fencedMethod {lease : LeaseCheck} {set : Instant → Document}
    (hnow : allowed ItemCommand.utcNow) (hfind : ∀ filter, allowed (.mongo (.findOne filter)))
    (hwrite : ∀ updatedAt token, leaseFenceToken (some lease.object) = .ok (some token) →
      allowed (.mongo (.findOneAndUpdate (fencedFilter (idFilter ids) token)
        (withFence { set := set updatedAt } token) false true))) :
    (do
      raising lease.outcome
      let updatedAt ← utcNow
      writing (fencedFindOneAndUpdate (some lease.object) (idFilter ids)
        { set := set updatedAt } false true) : Handling (Option Document)).run.Issues allowed := by
  refine Issues.raising_bind (issues_raising _) fun _ => ?_
  refine Issues.raising_bind (issues_utcNow hnow) fun updatedAt => ?_
  have hfenced : (fencedFindOneAndUpdate (some lease.object) (idFilter ids)
      { set := set updatedAt } false true).run.Issues fun command => allowed (toItem command) :=
    issues_fencedFindOneAndUpdate hfind nofun (hwrite updatedAt) nofun
  exact Issues.bind (hfenced.hoist fun command h => h) fun _ => trivial

end AiBuddy.Mindmap

/-!
## When a claim is not taken from a job at work

Between two claims the item changes only by the claims of one job, and a claim that is stale at
one time is stale at every later one.
-/

namespace AiBuddy.Mindmap

open Mongo Program Reminders

variable {kind : Kind} {ids : List Value} {jobId : String} {slot : Nat}

/-- Where a command of `claim` writes, it claims. -/
def Claiming (kind : Kind) (ids : List Value) (jobId : String) {β : Type} :
    ItemCommand β → Prop
  | .mongo command => ∀ filter update upsert, command.update? = some (filter, update, upsert) →
      upsert = false ∧ filter = claimFilter kind ids ∧
        ∃ claimedAt updatedAt, update = claimUpdate jobId claimedAt updatedAt
  | .utcNow => True

theorem claiming_claim : (claim kind ids jobId).run.Issues (Claiming kind ids jobId) := by
  refine issues_claim nofun trivial fun claimedAt updatedAt => ?_
  rintro filter update upsert ⟨⟩
  exact ⟨rfl, rfl, _, _, rfl⟩

variable {doc : Document}

section Steps

variable {collides : Document → Document → Bool} {s s' : State}

theorem accepts_of_claimFilter (h : (claimFilter kind ids).accepts doc = true) :
    (idFilter ids).accepts doc = true := (Filter.accepts_append h).1

theorem claim_step {β : Type} {command : ItemCommand β} {reply : β} (hsole : Sole ids slot s)
    (hclaiming : Claiming kind ids jobId command) (h : performs collides command s reply s') :
    Sole ids slot s' ∧ s'.clock = s.clock ∧
      (s'.store = s.store ∨
        command.writes = true ∧ s'.store.landed ≠ s.store.landed ∧
          ∃ doc, s'.store.collection.doc slot = some doc ∧
            doc.get "claimedBy" = some (.str jobId)) := by
  cases command with
  | utcNow =>
    obtain ⟨-, rfl⟩ := h
    exact ⟨hsole, rfl, .inl rfl⟩
  | mongo command =>
    have hclock : s'.clock = s.clock := h.2
    have heffect := effect_of_performs h
    obtain ⟨store, clock⟩ := s'
    dsimp only at heffect hclock ⊢
    cases heffect with
    | nothing => exact ⟨hsole, hclock, .inl rfl⟩
    | @updated _ _ _ slot' doc hupdate hdoc haccepts =>
      obtain ⟨-, rfl, claimedAt, updatedAt, rfl⟩ := hclaiming _ _ _ hupdate
      have hid := accepts_of_claimFilter haccepts
      obtain rfl : slot' = slot := hsole slot' doc hdoc hid
      have hlt := Collection.lt_of_doc hdoc
      refine ⟨?_, hclock, .inr ⟨by simp [ItemCommand.writes, hupdate], by simp, ?_⟩⟩
      · intro other found hfound haccepted
        dsimp only at hfound
        rw [Collection.doc_replace hlt] at hfound
        split at hfound
        · assumption
        · exact hsole other found hfound haccepted
      · exact ⟨_, (Collection.doc_replace hlt _ _).trans (if_pos rfl), Update.get_apply rfl _ _⟩
    | inserted hupdate => cases (hclaiming _ _ _ hupdate).1

theorem isStaleActive_mono {now now' : Instant} (hle : now ≤ now')
    (h : isStaleActive kind doc now = true) : isStaleActive kind doc now' = true := by
  unfold isStaleActive at h ⊢
  rw [Bool.and_eq_true] at h ⊢
  refine ⟨h.1, ?_⟩
  split
  · rfl
  · next parsed hparsed =>
    have hparsed' := h.2
    rw [hparsed] at hparsed'
    simp only [decide_eq_true_eq] at hparsed' ⊢
    exact Int.le_trans hparsed' (Int.sub_le_sub_right hle _)

theorem AtWork.earlier (h : AtWork kind jobId slot s')
    (hdoc : s'.store.collection.doc slot = s.store.collection.doc slot)
    (hclock : s.clock ≤ s'.clock) : AtWork kind jobId slot s := by
  obtain ⟨doc, hitem, hclaimed, hactive, hqueued, hfresh⟩ := h
  refine ⟨doc, hdoc ▸ hitem, hclaimed, hactive, hqueued, ?_⟩
  by_contra hstale
  rw [isStaleActive_mono hclock (Bool.not_eq_false _ ▸ hstale)] at hfresh
  cases hfresh

theorem AtWork.claimedBy {claimer : String} (h : AtWork kind jobId slot s)
    (hdoc : s.store.collection.doc slot = some doc)
    (hclaimed : doc.get "claimedBy" = some (.str claimer)) : jobId = claimer := by
  obtain ⟨doc', hdoc', hclaimed', -⟩ := h
  obtain rfl := Option.some.inj (hdoc.symm.trans hdoc')
  exact Value.str.inj (Option.some.inj (hclaimed'.symm.trans hclaimed))

end Steps

/-- What holds of the commands of a run: as long as no other job claims, the item is as a job met it
or claimed by that job, and no claim was taken from a job at work. -/
structure Orderly (kind : Kind) (ids : List Value) (slot : Nat) (j : ClaimJournal) : Prop where
  sole : Sole ids slot j.state
  since : ∀ since look older, j.events = since ++ look :: older →
    (∀ event ∈ since, event.label.jobId ≠ look.label.jobId → ¬ Claims event) →
    look.before.clock ≤ j.state.clock ∧
      (j.state.store.collection.doc slot = look.before.store.collection.doc slot ∨
        ∃ doc, j.state.store.collection.doc slot = some doc ∧
          doc.get "claimedBy" = some (.str look.label.jobId))
  apart : ClaimsApart kind slot j.events

section Runs

variable {collides : Document → Document → Bool} {j j' : ClaimJournal} {start : State}
  {pool : ClaimPool}

theorem Orderly.outside (h : Orderly kind ids slot j) (hmove : Journaled.Outside Elapses j j') :
    Orderly kind ids slot j' := by
  obtain ⟨state, events⟩ := j'
  obtain ⟨⟨hstore, hclock⟩, hevents⟩ := hmove
  dsimp only at hstore hclock hevents
  subst hevents
  refine ⟨?_, ?_, h.apart⟩
  · intro slot' doc hdoc
    exact h.sole slot' doc (hstore ▸ hdoc)
  · intro since look older hsplit hquiet
    obtain ⟨hle, hitem⟩ := h.since since look older hsplit hquiet
    refine ⟨Int.le_trans hle hclock, ?_⟩
    rw [hstore]
    exact hitem

theorem Orderly.step {β : Type} {command : ClaimCommand β} {reply : β}
    (h : Orderly kind ids slot j)
    (hclaiming : Claiming kind ids command.label.jobId command.command)
    (hundisturbed : ClaimsUndisturbed kind slot command j)
    (hstep : Labelled.semantics (performs collides) command j reply j') :
    Orderly kind ids slot j' := by
  obtain ⟨state, events⟩ := j'
  obtain ⟨hperforms, hevents⟩ := hstep
  dsimp only at hperforms hevents
  subst hevents
  obtain ⟨hsole, hclock, heffect⟩ := claim_step h.sole hclaiming hperforms
  refine ⟨hsole, ?_, List.pairwise_cons.mpr ⟨?_, h.apart⟩⟩
  · intro since look older hsplit hquiet
    dsimp only at hsplit ⊢
    cases since with
    | nil =>
      obtain ⟨rfl, rfl⟩ := List.cons.inj hsplit
      refine ⟨hclock ▸ Int.le_refl _, ?_⟩
      rcases heffect with hstore | ⟨-, -, hclaimed⟩
      · exact .inl (by rw [hstore])
      · exact .inr hclaimed
    | cons event since =>
      obtain ⟨rfl, hrest⟩ := List.cons.inj hsplit
      obtain ⟨hle, hitem⟩ := h.since since look older hrest fun event hevent =>
        hquiet event (List.mem_cons_of_mem _ hevent)
      refine ⟨hclock ▸ hle, ?_⟩
      rcases heffect with hstore | ⟨-, hlanded, hclaimed⟩
      · rw [hstore]
        exact hitem
      · by_cases hsame : command.label.jobId = look.label.jobId
        · exact .inr (hsame ▸ hclaimed)
        · exact absurd hlanded (hquiet _ List.mem_cons_self hsame)
  · intro earlier _ hclaims _ hother hatWork
    rcases heffect with hstore | ⟨hwrites, -, -⟩
    · exact hclaims (congrArg Store.landed hstore)
    -- The caller met the item free, and only its own job may have claimed it since.
    obtain ⟨since, look, older, hsplit, hlook, hfree, hquiet⟩ := hundisturbed hwrites
    obtain ⟨hle, hitem⟩ := h.since since look older hsplit (hlook ▸ hquiet)
    rcases hitem with hitem | ⟨doc, hdoc, hclaimed⟩
    · exact hfree _ hother (hatWork.earlier hitem hle)
    · exact hother ((hatWork.claimedBy hdoc hclaimed).trans (congrArg Caller.jobId hlook))

/-- In a run whose claiming writes are undisturbed, no call claims the item from another job that
is at work on it. -/
theorem claims_apart (hsole : Sole ids slot start)
    (hrun : ClaimRun kind ids collides (ClaimsUndisturbed kind slot) start pool) :
    ClaimsApart kind slot pool.shared.events := by
  have hstart : Orderly kind ids slot ⟨start, []⟩ := ⟨hsole, fun since => by simp, .nil⟩
  have hnone : (⟨[], ⟨start, []⟩⟩ : ClaimPool).Issues fun command =>
      Claiming kind ids command.label.jobId command.command :=
    fun _ hmem => absurd hmem List.not_mem_nil
  refine (hnone.run (Orderly kind ids slot) ?_ ?_ ?_ hstart hrun).2.apart
  · rintro _ _ ⟨caller, rfl⟩
    refine claiming_claim.labelled.mono fun command => ?_
    rintro ⟨hlabel, hclaiming⟩
    exact hlabel ▸ hclaiming
  · exact fun _ _ h hmove => h.outside hmove
  · exact fun _ _ _ _ hclaiming h hstep => h.step hclaiming hstep.1 hstep.2

end Runs

/-! Two jobs claim a mind map that is queued. -/

def sampleIds : List Value := [.str "m1"]

def sampleItem : State :=
  ⟨⟨⟨[some [("_id", .str "m1"), ("status", .str "QUEUED"), ("claimedBy", .null)]]⟩, []⟩,
    20000 * day⟩

def sampleCallers : List Caller := [⟨"j1", 0⟩, ⟨"j2", 0⟩]

def sampleCalls : ClaimPool :=
  ⟨sampleCallers.map fun caller => labelled caller (claim .mindmap sampleIds caller.jobId).run,
    ⟨sampleItem, []⟩⟩

def sampleCallsAfter (order : List Nat) : ClaimPool :=
  sampleCalls.turns (Labelled.answer answer) order

def returned (pool : ClaimPool) : List (Except HandleError ClaimReply) :=
  pool.threads.filterMap fun prog =>
    match prog with
    | .ret reply => some reply
    | .call _ _ => none

def isClaimed : Except HandleError ClaimReply → Bool
  | .ok (.claimed _) => true
  | _ => false

theorem sampleCalls_run (allowed : ClaimCondition)
    (check : ∀ {β : Type}, ClaimCommand β → ClaimJournal → Bool)
    (hallowed : ∀ {β : Type} (command : ClaimCommand β) j, check command j = true →
      allowed command j)
    (order : List Nat) (h : sampleCalls.turnsPass (Labelled.answer answer) check order = true) :
    ClaimRun .mindmap sampleIds (fun _ _ => false) allowed sampleItem (sampleCallsAfter order) := by
  have hstarted : ClaimRun .mindmap sampleIds (fun _ _ => false) allowed sampleItem sampleCalls :=
    (Relation.ReflTransGen.single (.spawn ⟨⟨"j2", 0⟩, rfl⟩)).tail (.spawn ⟨⟨"j1", 0⟩, rfl⟩)
  apply hstarted.trans
  apply Pool.turns_run check _ order _ h
  exact fun command j hcheck =>
    ⟨hallowed command j hcheck, performs_answer command.command j.state, rfl⟩

theorem sampleItem_sole : Sole sampleIds 0 sampleItem := by
  intro slot doc hdoc _
  cases slot with
  | zero => rfl
  | succ slot =>
    cases slot <;> cases hdoc

/-- `Undisturbed`, as a test that looks one command back. -/
def undisturbed {β : Type} (command : ClaimCommand β) (j : ClaimJournal) : Bool :=
  !command.command.writes ||
    match j.events with
    | [] => false
    | look :: _ => look.label = command.label &&
        (look.before.store.collection.doc 0).all fun doc => doc.get "claimedBy" = some .null

theorem undisturbed_sound {β : Type} (command : ClaimCommand β) (j : ClaimJournal)
    (h : undisturbed command j = true) : ClaimsUndisturbed .mindmap 0 command j := by
  intro hwrites
  unfold undisturbed at h
  rw [hwrites, Bool.not_true, Bool.false_or] at h
  cases hevents : j.events with
  | nil =>
    rw [hevents] at h
    cases h
  | cons look older =>
    rw [hevents, Bool.and_eq_true] at h
    refine ⟨[], look, older, rfl, of_decide_eq_true h.1, ?_,
      fun _ hmem => absurd hmem List.not_mem_nil⟩
    rintro jobId - ⟨doc, hdoc, hclaimed, -⟩
    have hnull := h.2
    rw [hdoc, Option.all_some, hclaimed] at hnull
    cases of_decide_eq_true hnull

theorem claims_apart_sample :
    (returned (sampleCallsAfter [1, 0, 0, 0, 0, 0])).map isClaimed = [true] ∧
      ClaimsApart .mindmap 0 (sampleCallsAfter [1, 0, 0, 0, 0, 0]).shared.events :=
  ⟨by decide +kernel, claims_apart sampleItem_sole
    (sampleCalls_run _ undisturbed undisturbed_sound _ (by decide +kernel))⟩

/-- The second call reads the item after the first one has claimed it, and claims it too. -/
theorem claimed_from_job_at_work :
    ClaimRun .mindmap sampleIds (fun _ _ => false) (fun _ _ => True) sampleItem
      (sampleCallsAfter [0, 0, 0, 0, 0, 1, 1, 1, 1, 1]) ∧
    (returned (sampleCallsAfter [0, 0, 0, 0, 0, 1, 1, 1, 1, 1])).map isClaimed = [true, true] ∧
    ¬ ClaimsApart .mindmap 0 (sampleCallsAfter [0, 0, 0, 0, 0, 1, 1, 1, 1, 1]).shared.events := by
  refine ⟨sampleCalls_run _ (fun _ _ => true) (fun _ _ _ => trivial) _ rfl, by decide +kernel, ?_⟩
  intro hapart
  have hpair := List.pairwise_iff_getElem.mp hapart 0 5 (by decide +kernel) (by decide +kernel)
    (by decide)
  refine hpair (fun hsame => ?_) (fun hsame => ?_) (by decide +kernel)
    ⟨_, rfl, rfl, by decide +kernel, by decide +kernel, by decide +kernel⟩
  · exact absurd (congrArg List.length hsame) (by decide +kernel)
  · exact absurd (congrArg List.length hsame) (by decide +kernel)

end AiBuddy.Mindmap
