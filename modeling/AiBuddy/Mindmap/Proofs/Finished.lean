import AiBuddy.Mindmap.Proofs.Claims

/-!
# When a finished item stays finished

The fence of an item never falls. So no fenced write of a job lands on an item that a job with a
newer token has made READY, and what is left are the writes without a fence.
-/

namespace AiBuddy.Mindmap

open Mongo Program Queue.JobLease Queue.MongoFence Reminders

variable {kind : Kind} {token? : Option Int} {job : Job}

def Writes (token? : Option Int) {β : Type} : ItemCommand β → Prop
  | .mongo command => ∀ filter update upsert, command.update? = some (filter, update, upsert) →
      upsert = false ∧
        ((update.modify = [] ∧ update.set.get fenceField = none ∧
            update.set.get "status" ≠ some (.str Status.ready.value)) ∨
          ∃ token base, token? = some token ∧ filter = fencedFilter base token ∧
            update.set.get fenceField = some (.int token))
  | .utcNow => True

theorem writes_plain {filter : Filter} {set : Document} {returnAfter : Bool}
    (hfence : set.get fenceField = none)
    (hstatus : set.get "status" ≠ some (.str Status.ready.value)) :
    Writes token? (.mongo (.findOneAndUpdate filter { set } false returnAfter)) := by
  rintro _ _ _ ⟨⟩
  exact ⟨rfl, .inl ⟨rfl, hfence, hstatus⟩⟩

theorem writes_fenced {base : Filter} {update : Update} {returnAfter : Bool} {token : Int}
    (htoken : token? = some token) :
    Writes token? (.mongo (.findOneAndUpdate (fencedFilter base token) (withFence update token)
      false returnAfter)) := by
  rintro _ _ _ ⟨⟩
  refine ⟨rfl, .inr ⟨token, base, htoken, rfl, ?_⟩⟩
  rw [withFence, Document.get_put, if_pos rfl]

theorem writes_claim {jobId : String} {ids : List Value} :
    (claim kind ids jobId).run.Issues (Writes token?) :=
  issues_claim nofun trivial fun _ _ =>
    writes_plain rfl (by simp [Status.value])

theorem mem_updates {progress : Progress} {updatedAt claimedAt value : Value} {path : String}
    (h : (progress.updates updatedAt claimedAt).get path = some value) :
    path ≠ fenceField ∧
      (path = "status" → ∃ status, progress.status = some status ∧ value = .str status.value) := by
  have hmem : (path, value) ∈ progress.updates updatedAt claimedAt := by
    obtain ⟨front, back, hsplit, -⟩ := List.lookup_eq_some_iff.mp h
    rw [hsplit]
    exact List.mem_append_right _ List.mem_cons_self
  have hother : ∀ name, name = path → name ≠ fenceField → name ≠ "status" → path ≠ fenceField ∧
      (path = "status" → ∃ status, progress.status = some status ∧ value = .str status.value) := by
    rintro name rfl hfence hstatus
    exact ⟨hfence, fun hsame => absurd hsame hstatus⟩
  simp only [Progress.updates, List.mem_append, Option.mem_toList, Option.map_eq_some_iff,
    List.mem_singleton, Prod.mk.injEq] at hmem
  rcases hmem with (((((((⟨hname, -⟩ | ⟨status, hstatus, rfl, rfl⟩) | ⟨_, -, hname, -⟩) |
    ⟨_, -, hname, -⟩) | ⟨_, -, hname, -⟩) | ⟨_, -, hname, -⟩) | ⟨_, -, hname, -⟩) |
    ⟨_, -, hname, -⟩) | hclaimed
  case inl.inl.inl.inl.inl.inl.inl.inr => exact ⟨by decide, fun _ => ⟨status, hstatus, rfl⟩⟩
  case inr =>
    cases hjob : progress.claimedBy with
    | none =>
      rw [hjob] at hclaimed
      cases hclaimed
    | some claimer =>
      simp only [hjob, Option.map_some, Option.getD_some, List.mem_cons, List.not_mem_nil,
        Prod.mk.injEq, or_false] at hclaimed
      rcases hclaimed with ⟨hname, -⟩ | ⟨hname, -⟩
      all_goals exact hother _ hname.symm (by decide) (by decide)
  case inl.inl.inl.inl.inl.inl.inl.inl => exact hother _ hname.symm (by decide) (by decide)
  all_goals exact hother _ hname (by decide) (by decide)

theorem writes_progress {progress : Progress} (h : progress.status ≠ some .ready) :
    (job.progress progress).run.Issues (Writes token?) := by
  refine Issues.raising_bind (issues_updateProgress trivial fun updatedAt claimedAt =>
    writes_plain ?_ ?_) fun _ => trivial
  · by_contra hfence
    obtain ⟨value, hvalue⟩ := Option.ne_none_iff_exists'.mp hfence
    exact (mem_updates hvalue).1 rfl
  · intro hready
    obtain ⟨status, hstatus, hvalue⟩ := (mem_updates hready).2 rfl
    obtain rfl : status = .ready := by
      cases status <;> simp [Status.value] at hvalue ⊢
    exact h hstatus

theorem token_of_object {object : LeaseObject} {token : Int} (hlease : object.lease = job.lease)
    (h : leaseFenceToken (some object) = .ok (some token)) : job.token? = some token := by
  rw [Job.token?, ← hlease]
  exact token_of_leaseFenceToken h

theorem writes_saveReady {finished : Finished} :
    (saveReady job.ids job.saving finished).run.Issues (Writes job.token?) :=
  issues_fencedMethod trivial (fun _ => nofun) fun _ _ htoken =>
    writes_fenced (token_of_object job.saving_lease htoken)

theorem writes_markFailed {error : String} :
    (markFailed job.ids job.failing error).run.Issues (Writes job.token?) :=
  issues_fencedMethod trivial (fun _ => nofun) fun _ _ htoken =>
    writes_fenced (token_of_object job.failing_lease htoken)

theorem writes_mindmapWork : (mindmapWork job).run.Issues (Writes job.token?) := by
  refine Issues.raising_bind (issues_raising _) fun scope => ?_
  refine Issues.raising_bind (writes_progress (by simp)) fun _ => ?_
  refine Issues.raising_bind (issues_raising _) fun bundle => ?_
  refine Issues.raising_bind (writes_progress (by simp)) fun _ => ?_
  dsimp only
  split
  · trivial
  · refine Issues.raising_bind (writes_progress (by simp)) fun _ => ?_
    refine Issues.raising_bind (issues_raising _) fun generated => ?_
    refine Issues.raising_bind (writes_progress (by simp)) fun _ => ?_
    exact Issues.raising_bind writes_saveReady fun _ => trivial

theorem writes_documentWork : (documentWork job).run.Issues (Writes job.token?) := by
  refine Issues.raising_bind (issues_raising _) fun title => ?_
  refine Issues.raising_bind (issues_raising _) fun scope => ?_
  refine Issues.raising_bind (writes_progress (by simp)) fun _ => ?_
  refine Issues.raising_bind (issues_raising _) fun bundle => ?_
  refine Issues.raising_bind (writes_progress (by simp)) fun _ => ?_
  dsimp only
  split
  · trivial
  · refine Issues.raising_bind (writes_progress (by simp)) fun _ => ?_
    refine Issues.raising_bind (issues_raising _) fun generated => ?_
    refine Issues.raising_bind (writes_progress (by simp)) fun _ => ?_
    refine Issues.raising_bind (issues_raising _) fun rendered => ?_
    refine Issues.raising_bind (writes_progress (by simp)) fun _ => ?_
    exact Issues.raising_bind writes_saveReady fun _ => trivial

theorem writes_recover {error : HandleError} :
    (job.recover error).run.Issues (Writes job.token?) := by
  have hfailed : ∀ (text : String) (raised : HandleError),
      (do
        let _ ← markFailed job.ids job.failing text
        throw raised : Handling Unit).run.Issues (Writes job.token?) :=
    fun text raised => Issues.raising_bind writes_markFailed fun _ => trivial
  cases error with
  | valueError text => exact hfailed text _
  | nonRetryable text => exact hfailed text _
  | generateError text => exact hfailed text _
  | staleOwnership logicalKey reason => trivial
  | leavePending logicalKey => trivial
  | mongo error => exact hfailed _ _
  | other text => exact hfailed text _

theorem writes_handle : (handle kind job).run.Issues (Writes job.token?) := by
  unfold handle
  split
  · trivial
  · refine Issues.raising_bind writes_claim fun reply => ?_
    cases reply with
    | missing => trivial
    | exists_ existing => trivial
    | busy existing => trivial
    | claimed updated =>
      have hwork : (kind.work job).run.Issues (Writes job.token?) := by
        cases kind with
        | mindmap => exact writes_mindmapWork
        | document => exact writes_documentWork
      refine Issues.attempt_bind hwork fun outcome => ?_
      cases outcome with
      | ok _ => trivial
      | error error => exact writes_recover

inductive JobMove (token? : Option Int) (j : JobJournal) : Store → Prop where
  | nothing : JobMove token? j j.state.store
  | plain {update : Update} {slot : Nat} {doc : Document} :
      j.state.store.collection.doc slot = some doc → Spared token? slot j →
      update.modify = [] → update.set.get fenceField = none →
      update.set.get "status" ≠ some (.str Status.ready.value) →
      JobMove token? j
        ⟨j.state.store.collection.replace slot (update.apply false doc),
          ⟨slot, some doc, update⟩ :: j.state.store.landed⟩
  | fenced {token : Int} {update : Update} {slot : Nat} {doc : Document} :
      j.state.store.collection.doc slot = some doc → token? = some token →
      (∀ fence, fenceOf doc = some fence → fence ≤ token) →
      update.set.get fenceField = some (.int token) →
      JobMove token? j
        ⟨j.state.store.collection.replace slot (update.apply false doc),
          ⟨slot, some doc, update⟩ :: j.state.store.landed⟩

variable {β : Type}

section Moves

variable {collides : Document → Document → Bool} {j j' : JobJournal} {s : Store} {slot : Nat}
  {doc doc' : Document} {landed : List Landed}

theorem jobMove {command : JobCommand β} {reply : β} {s' : State}
    (hwrites : Writes command.label command.command) (hspares : SparesFinished command j)
    (h : performs collides command.command j.state reply s') :
    JobMove command.label j s'.store := by
  obtain ⟨label, command⟩ := command
  cases command with
  | utcNow =>
    obtain ⟨-, rfl⟩ := h
    exact .nothing
  | mongo command =>
    have heffect := effect_of_performs h
    generalize s'.store = store at heffect
    cases heffect with
    | nothing => exact .nothing
    | @updated filter update _ slot doc hupdate hdoc haccepts =>
      obtain ⟨-, ⟨hmodify, hfence, hstatus⟩ | ⟨token, base, htoken, rfl, hfence⟩⟩ :=
        hwrites _ _ _ hupdate
      · have hspared := hspares _ _ _ hupdate hfence slot doc hdoc haccepts
        exact .plain hdoc hspared hmodify hfence hstatus
      · exact .fenced hdoc htoken (fun fence => fence_le_of_accepts haccepts) hfence
    | inserted hupdate => cases (hwrites _ _ _ hupdate).1

theorem forward_replace (hdoc : s.collection.doc slot = some doc)
    (hfence : ∀ fence, fenceOf doc = some fence →
      ∃ fence', fenceOf doc' = some fence' ∧ fence ≤ fence') :
    Forward s ⟨s.collection.replace slot doc', landed⟩ := by
  refine ⟨by simp [Collection.replace], fun other after _ hafter => ?_⟩
  rw [Collection.doc_replace (Collection.lt_of_doc hdoc)] at hafter
  split at hafter
  · next hother =>
    obtain rfl := Option.some.inj hafter
    exact ⟨doc, hother ▸ hdoc, hfence⟩
  · exact (Forward.refl s).fences other after ‹_› hafter

theorem JobMove.forward (h : JobMove token? j s) : Forward j.state.store s := by
  cases h with
  | nothing => exact .refl _
  | plain hdoc _ hmodify hfence _ =>
    refine forward_replace hdoc fun fence hbefore => ⟨fence, ?_, Int.le_refl _⟩
    rw [fenceOf_eq_some] at hbefore ⊢
    simp [Update.apply, Update.get_assign, hmodify, hfence, hbefore]
  | fenced hdoc _ hle hfence =>
    exact forward_replace hdoc fun fence hbefore =>
      ⟨_, fenceOf_eq_some.mpr (Update.get_apply hfence _ _), hle fence hbefore⟩

end Moves

structure Kept (kind : Kind) (j : JobJournal) : Prop where
  inside : ∀ event ∈ j.events, ∀ slot, Saves event slot →
    slot < j.state.store.collection.slots.length
  fenced : ∀ event ∈ j.events, ∀ slot token doc, Saves event slot → event.label = some token →
    j.state.store.collection.doc slot = some doc →
    ∃ fence, fenceOf doc = some fence ∧ token ≤ fence
  quiet : StaysFinished kind j.events

section Journal

variable {collides : Document → Document → Bool} {j j' : JobJournal} {s s' : State}
  {slot changed : Nat} {before doc' : Document} {update : Update}

theorem slot_of_saves
    (hstore : s'.store = ⟨s.store.collection.replace changed doc',
      ⟨changed, some before, update⟩ :: s.store.landed⟩)
    (h : Saves ⟨token?, s, s'⟩ slot) :
    slot = changed ∧ update.set.get "status" = some (.str Status.ready.value) := by
  obtain ⟨doc, found, hlanded, hstatus⟩ := h
  rw [hstore] at hlanded
  simp only [List.cons.injEq, Landed.mk.injEq, and_true] at hlanded
  obtain ⟨rfl, -, rfl⟩ := hlanded
  exact ⟨rfl, hstatus⟩

theorem not_saves_self (hstore : s'.store = s.store) : ¬ Saves ⟨token?, s, s'⟩ slot := by
  rintro ⟨doc, update, hlanded, -⟩
  rw [hstore] at hlanded
  exact List.cons_ne_self _ _ hlanded.symm

theorem slot_of_changes {landed : List Landed}
    (hdoc : s.store.collection.doc changed = some before)
    (hstore : s'.store = ⟨s.store.collection.replace changed doc', landed⟩)
    (h : Changes kind ⟨token?, s, s'⟩ slot) : slot = changed := by
  obtain ⟨found, after, path, hfound, hafter, -, hdiffers⟩ := h
  by_contra hslot
  rw [hstore, Collection.doc_replace (Collection.lt_of_doc hdoc), if_neg hslot] at hafter
  obtain rfl := Option.some.inj (hfound.symm.trans hafter)
  exact hdiffers rfl

theorem not_changes_self (hstore : s'.store = s.store) : ¬ Changes kind ⟨token?, s, s'⟩ slot := by
  rintro ⟨found, after, path, hfound, hafter, -, hdiffers⟩
  rw [hstore] at hafter
  obtain rfl := Option.some.inj (hfound.symm.trans hafter)
  exact hdiffers rfl

theorem Kept.later (h : Kept kind j) (hforward : Forward j.state.store s.store) :
    Kept kind ⟨s, j.events⟩ := by
  refine ⟨?_, ?_, h.quiet⟩
  · intro event hmem slot hsaves
    exact Nat.lt_of_lt_of_le (h.inside event hmem slot hsaves) hforward.grows
  · intro event hmem slot token doc hsaves hlabel hdoc
    obtain ⟨earlier, hearlier, hrises⟩ :=
      hforward.fences slot doc (h.inside event hmem slot hsaves) hdoc
    obtain ⟨fence, hfence, hle⟩ := h.fenced event hmem slot token earlier hsaves hlabel hearlier
    obtain ⟨fence', hfence', hle'⟩ := hrises fence hfence
    exact ⟨fence', hfence', Int.le_trans hle hle'⟩

theorem JobMove.saves (h : JobMove token? j s.store) (hsaves : Saves ⟨token?, j.state, s⟩ slot) :
    slot < s.store.collection.slots.length ∧
      ∀ token doc, token? = some token → s.store.collection.doc slot = some doc →
        fenceOf doc = some token := by
  generalize hstore : s.store = store at h
  cases h with
  | nothing => exact absurd hsaves (not_saves_self hstore)
  | plain hdoc _ _ _ hstatus => exact absurd (slot_of_saves hstore hsaves).2 hstatus
  | fenced hdoc htoken _ hfence =>
    obtain ⟨rfl, -⟩ := slot_of_saves hstore hsaves
    have hlt := Collection.lt_of_doc hdoc
    refine ⟨by simpa [Collection.replace] using hlt, fun token doc hsame hafter => ?_⟩
    obtain rfl := Option.some.inj (htoken.symm.trans hsame)
    rw [Collection.doc_replace hlt, if_pos rfl] at hafter
    obtain rfl := Option.some.inj hafter
    exact fenceOf_eq_some.mpr (Update.get_apply hfence _ _)

theorem JobMove.spares (h : JobMove token? j s.store) (hkept : Kept kind j) {token token' : Int}
    (htoken : token? = some token) (hlt : token < token') {earlier : Event (Option Int) State}
    (hmem : earlier ∈ j.events) (hlabel : earlier.label = some token')
    (hsaves : Saves earlier slot) : ¬ Changes kind ⟨token?, j.state, s⟩ slot := by
  intro hchanges
  generalize hstore : s.store = store at h
  cases h with
  | nothing => exact not_changes_self hstore hchanges
  | plain hdoc hspared _ _ _ =>
    obtain rfl := slot_of_changes hdoc hstore hchanges
    exact hspared token token' htoken hlt earlier hmem hlabel hsaves
  | fenced hdoc hsame hle _ =>
    obtain rfl := slot_of_changes hdoc hstore hchanges
    obtain rfl := Option.some.inj (htoken.symm.trans hsame)
    obtain ⟨fence, hfence, hnewer⟩ := hkept.fenced earlier hmem slot token' _ hsaves hlabel hdoc
    exact Int.not_lt.mpr (Int.le_trans hnewer (hle fence hfence)) hlt

theorem Kept.step {command : JobCommand β} {reply : β} (h : Kept kind j)
    (hwrites : Writes command.label command.command) (hspares : SparesFinished command j)
    (hstep : Labelled.semantics (performs collides) command j reply j') : Kept kind j' := by
  obtain ⟨state, events⟩ := j'
  obtain ⟨hperforms, hevents⟩ := hstep
  dsimp only at hperforms hevents
  subst hevents
  have hmove := jobMove hwrites hspares hperforms
  have hlater := h.later hmove.forward
  refine ⟨?_, ?_, List.pairwise_cons.mpr ⟨?_, h.quiet⟩⟩
  · rw [List.forall_mem_cons]
    exact ⟨fun slot hsaves => (hmove.saves hsaves).1, hlater.inside⟩
  · rw [List.forall_mem_cons]
    refine ⟨fun slot token doc hsaves hlabel hdoc => ?_, hlater.fenced⟩
    exact ⟨token, (hmove.saves hsaves).2 token doc hlabel hdoc, Int.le_refl _⟩
  · intro earlier hmem slot token token' hlabel hlabel' hlt hsaves
    exact hmove.spares h hlabel hlt hmem hlabel' hsaves

theorem Kept.outside (h : Kept kind j) (hmove : Journaled.Outside OtherMoves j j') :
    Kept kind j' := by
  obtain ⟨state, events⟩ := j'
  obtain ⟨⟨helsewhere, -⟩, hevents⟩ := hmove
  dsimp only at helsewhere hevents
  subst hevents
  exact h.later helsewhere.forward

end Journal

/-- In a run whose unfenced writes spare the items that a job with a newer token has made READY,
these items stay as they are. -/
theorem finished_stays_finished {collides : Document → Document → Bool} {start : State}
    {pool : JobPool} (hrun : JobRun kind collides SparesFinished start pool) :
    StaysFinished kind pool.shared.events := by
  have hnone : (⟨[], ⟨start, []⟩⟩ : JobPool).Issues fun command =>
      Writes command.label command.command := fun _ hmem => absurd hmem List.not_mem_nil
  have hstart : Kept kind ⟨start, []⟩ :=
    ⟨fun _ hmem => absurd hmem List.not_mem_nil, fun _ hmem => absurd hmem List.not_mem_nil, .nil⟩
  refine (hnone.run (Kept kind) ?_ ?_ ?_ hstart hrun).2.quiet
  · rintro _ _ ⟨job, rfl⟩
    refine writes_handle.labelled.mono fun command => ?_
    rintro ⟨hlabel, hwrites⟩
    exact hlabel ▸ hwrites
  · exact fun _ _ h hmove => h.outside hmove
  · exact fun _ _ _ _ hwrites h hstep => h.step hwrites hstep.1 hstep.2

/-! Two deliveries of one job, with the tokens 1 and 2. -/

def sampleLease (token : String) : Lease :=
  { logicalKey := "mindmap.generate.requested|mindmap:m1", owner := "w" ++ token, token := token,
    messageId := "1-0", eventId := "j1", eventType := "mindmap.generate.requested",
    retryCount := 0 }

def sampleJob (token : String) : Job where
  itemId := "m1"
  userId := "u1"
  spaceId := "s1"
  jobId := "j1"
  ids := [.str "m1"]
  lease := sampleLease token
  scope := .ok ⟨"space", [], ""⟩
  bundle := .ok ⟨.other "stats", true⟩
  emptyContext := "No context"
  generated := .ok ⟨.other ("graph " ++ token), .other "preview", .str "model"⟩
  saving := ⟨.ok (), { lease := sampleLease token }⟩
  failing := ⟨.ok (), { lease := sampleLease token }⟩
  saving_lease := rfl
  failing_lease := rfl
  driverText _ := ""

def sampleQueued : State :=
  ⟨⟨⟨[some [("_id", .str "m1"), ("status", .str "QUEUED"), ("claimedBy", .null)]]⟩, []⟩,
    20000 * day⟩

def sampleDeliveries : JobPool :=
  ⟨["1", "2"].map fun token =>
      labelled (sampleJob token).token? (handle .mindmap (sampleJob token)).run,
    ⟨sampleQueued, []⟩⟩

def sampleDeliveriesAfter (order : List Nat) : JobPool :=
  sampleDeliveries.turns (Labelled.answer answer) order

def sampleStored (order : List Nat) : Option Document :=
  (sampleDeliveriesAfter order).shared.state.store.collection.doc 0

theorem sampleDeliveries_run (allowed : JobCondition)
    (check : ∀ {β : Type}, JobCommand β → JobJournal → Bool)
    (hallowed : ∀ {β : Type} (command : JobCommand β) j, check command j = true →
      allowed command j)
    (order : List Nat)
    (h : sampleDeliveries.turnsPass (Labelled.answer answer) check order = true) :
    JobRun .mindmap (fun _ _ => false) allowed sampleQueued (sampleDeliveriesAfter order) := by
  have hstarted : JobRun .mindmap (fun _ _ => false) allowed sampleQueued sampleDeliveries :=
    (Relation.ReflTransGen.single (.spawn ⟨sampleJob "2", rfl⟩)).tail
      (.spawn ⟨sampleJob "1", rfl⟩)
  apply hstarted.trans
  apply Pool.turns_run check _ order _ h
  exact fun command j hcheck =>
    ⟨hallowed command j hcheck, performs_answer command.command j.state, rfl⟩

/-- `SparesFinished`, as a test: the write has a fence, or no job has a newer token. -/
def sparesFinished {β : Type} (command : JobCommand β) (j : JobJournal) : Bool :=
  match command.command with
  | .mongo command' =>
    (command'.update?.all fun written => (written.2.1.set.get fenceField).isSome) ||
      j.events.all fun event => event.label.any fun token' =>
        command.label.any fun token => token' ≤ token
  | .utcNow => true

theorem sparesFinished_sound (command : JobCommand β) (j : JobJournal)
    (h : sparesFinished command j = true) : SparesFinished command j := by
  obtain ⟨label, command⟩ := command
  cases command with
  | utcNow => trivial
  | mongo command =>
    intro filter update upsert hupdate hfence slot doc _ _ token token' htoken hlt earlier hmem
      hlabel
    have hlabel' : label = some token := htoken
    subst hlabel'
    rcases Bool.or_eq_true_iff.mp h with hfenced | holder
    · simp [hupdate, hfence] at hfenced
    · have hle := List.all_eq_true.mp holder earlier hmem
      simp only [hlabel, Option.any_some, decide_eq_true_eq] at hle
      exact absurd hlt (Int.not_lt.mpr hle)

/-- The commands of the older delivery up to the write of `save_ready`, all of the newer one, and
that write with the probe that follows it. -/
def fencedOrder : List Nat := List.replicate 14 0 ++ List.replicate 15 1 ++ [0, 0]

theorem finished_stays_finished_sample :
    ((sampleStored fencedOrder).map fun doc => (doc.get "status", doc.get "graph")) =
        some (some (.str "READY"), some (.other "graph 2")) ∧
      StaysFinished .mindmap (sampleDeliveriesAfter fencedOrder).shared.events :=
  ⟨by decide +kernel, finished_stays_finished
    (sampleDeliveries_run _ sparesFinished sparesFinished_sound _ (by decide +kernel))⟩

def lateOrder : List Nat := List.replicate 6 0 ++ List.replicate 15 1

theorem late_progress_reopens :
    JobRun .mindmap (fun _ _ => false) (fun _ _ => True) sampleQueued
      (sampleDeliveriesAfter (lateOrder ++ [0])) ∧
    ((sampleStored lateOrder).map fun doc => (doc.get "status", doc.get "progress")) =
      some (some (.str "READY"), some (.int 100)) ∧
    ((sampleStored (lateOrder ++ [0])).map fun doc => (doc.get "status", doc.get "progress")) =
      some (some (.str "GATHERING"), some (.int 20)) ∧
    ¬ StaysFinished .mindmap (sampleDeliveriesAfter (lateOrder ++ [0])).shared.events := by
  refine ⟨sampleDeliveries_run _ (fun _ _ => true) (fun _ _ _ => trivial) _ rfl,
    by decide +kernel, by decide +kernel, ?_⟩
  intro hquiet
  have hpair := List.pairwise_iff_getElem.mp hquiet 0 1 (by decide +kernel) (by decide +kernel)
    (by decide)
  refine hpair 0 1 2 (by decide +kernel) (by decide +kernel) (by decide) ⟨_, _, rfl, rfl⟩
    ⟨_, _, "status", rfl, rfl, List.mem_cons_self, ?_⟩
  decide +kernel

end AiBuddy.Mindmap
