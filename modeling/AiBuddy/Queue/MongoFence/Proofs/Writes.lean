import AiBuddy.Queue.MongoFence.Writes

/-!
# Fenced writes

A condition that holds of the probe and of the plain, the fenced and the inserting command
holds of every command of a fenced write.
-/

namespace AiBuddy.Queue.MongoFence

open Mongo Program JobLease

variable {doc : Document}

theorem accepts_fencedFilter {base : Filter} {token : Int}
    (h : Filter.accepts (fencedFilter base token) doc = true) : base.accepts doc = true := by
  simp only [Filter.accepts, fencedFilter, Clause.and, List.all_cons, List.all_nil, Bool.and_true,
    Bool.and_eq_true] at h
  exact h.1

theorem withFence_get {update : Update} {token : Int} {path : String} (h : path ≠ fenceField) :
    (withFence update token).set.get path = update.set.get path := by
  rw [withFence, Document.get_put, if_neg h]

theorem leaseFenceToken_some {object : LeaseObject} :
    (∃ error, leaseFenceToken (some object) = .error error) ∨
      ∃ token, leaseFenceToken (some object) = .ok (some token) := by
  unfold leaseFenceToken
  dsimp only
  split
  · exact .inl ⟨_, rfl⟩
  · split
    · exact .inr ⟨_, rfl⟩
    · exact .inl ⟨_, rfl⟩

theorem token_of_leaseFenceToken {object : LeaseObject} {token : Int}
    (h : leaseFenceToken (some object) = .ok (some token)) :
    Text.int? object.lease.token = some token := by
  unfold leaseFenceToken at h
  dsimp only at h
  split at h
  · cases h
  · split at h
    · next number hnumber =>
      cases h
      exact hnumber
    · cases h

variable {allowed : ∀ {β : Type}, Remote Mongo.Error Mongo.Command β → Prop}
  {object : Option LeaseObject} {base : Filter} {update : Update}

theorem issues_token_bind {α : Type} {f : Option Int → Writing α}
    (hplain : object = none → (f none).run.Issues allowed)
    (hfenced : ∀ token, leaseFenceToken object = .ok (some token) →
      (f (some token)).run.Issues allowed) :
    (ExceptT.mk (.ret (leaseFenceToken object)) >>= f).run.Issues allowed := by
  cases object with
  | none => exact hplain rfl
  | some object =>
    rcases leaseFenceToken_some with ⟨error, h⟩ | ⟨token, h⟩
    · rw [h]
      trivial
    · rw [h]
      exact hfenced token h

variable (hprobe : ∀ filter, allowed (.send (.findOne filter)))
include hprobe

theorem issues_rejectIfNewer (object : Option LeaseObject) (base : Filter) (token : Int) :
    (rejectIfNewer object base token).run.Issues allowed := by
  refine Issues.raising_bind (Issues.send (hprobe _)) fun existing => ?_
  split <;> trivial

theorem issues_upsertOrReject {α : Type} {command : Mongo.Command α} (token : Int)
    (hcommand : allowed (.send command)) :
    (upsertOrReject object base token command).run.Issues allowed := by
  refine Issues.attempt_bind (Issues.send hcommand) fun outcome => ?_
  cases outcome with
  | ok result => trivial
  | error error =>
    dsimp only
    split
    · exact Issues.raising_bind (issues_rejectIfNewer hprobe object base token) fun _ => trivial
    · trivial

theorem issues_fencedUpdateOne {upsert : Bool}
    (hplain : object = none → allowed (.send (.updateOne base update upsert)))
    (hfenced : ∀ token, leaseFenceToken object = .ok (some token) →
      allowed (.send (.updateOne (fencedFilter base token) (withFence update token) false)))
    (hupsert : upsert = true → ∀ token,
      allowed (.send (.updateOne base (withFence update token) true))) :
    (fencedUpdateOne object base update upsert).run.Issues allowed := by
  refine issues_token_bind (fun hnone => Issues.send (hplain hnone)) fun token htoken => ?_
  refine Issues.raising_bind (Issues.send (hfenced token htoken)) fun result => ?_
  split
  · trivial
  · refine Issues.raising_bind (issues_rejectIfNewer hprobe object base token) fun _ => ?_
    split
    · next h => exact issues_upsertOrReject hprobe token (hupsert h token)
    · trivial

theorem issues_fencedFindOneAndUpdate {upsert returnAfter : Bool}
    (hplain : object = none → allowed (.send (.findOneAndUpdate base update upsert returnAfter)))
    (hfenced : ∀ token, leaseFenceToken object = .ok (some token) → allowed
      (.send (.findOneAndUpdate (fencedFilter base token) (withFence update token) false
        returnAfter)))
    (hupsert : upsert = true → ∀ token,
      allowed (.send (.findOneAndUpdate base (withFence update token) true returnAfter))) :
    (fencedFindOneAndUpdate object base update upsert returnAfter).run.Issues allowed := by
  refine issues_token_bind (fun hnone => Issues.send (hplain hnone)) fun token htoken => ?_
  refine Issues.raising_bind (Issues.send (hfenced token htoken)) fun result => ?_
  split
  · trivial
  · refine Issues.raising_bind (issues_rejectIfNewer hprobe object base token) fun _ => ?_
    split
    · next h => exact issues_upsertOrReject hprobe token (hupsert h token)
    · trivial

end AiBuddy.Queue.MongoFence

/-!
## The fence along the runs of fenced writes

One case lemma says what a command of an attempt may do. From it the fences only
rise and the updates of one document land in the order of their tokens, as long as
no upsert comes upon a newer document.
-/

namespace AiBuddy.Queue.MongoFence

open Mongo Program JobLease

variable {fence : Int}

theorem fenceOf_eq_some : fenceOf doc = some fence ↔ doc.get fenceField = some (.int fence) := by
  unfold fenceOf
  split
  · next number h => simp [h]
  · next h =>
    refine ⟨nofun, fun hfence => absurd hfence (h fence)⟩

theorem fenceOf_withFence (update : Update) (token : Int) :
    fenceOf (withFence update token).set = some token := by
  simp [fenceOf_eq_some, withFence, Document.get_put]

theorem fenceOf_apply {update : Update} {token : Int} (h : fenceOf update.set = some token)
    (inserting : Bool) (doc : Document) : fenceOf (update.apply inserting doc) = some token :=
  fenceOf_eq_some.mpr (Update.get_apply (fenceOf_eq_some.mp h) inserting doc)

theorem fence_le_of_accepts {base : Filter} {token : Int}
    (h : Filter.accepts (fencedFilter base token) doc = true) (hfence : fenceOf doc = some fence) :
    fence ≤ token := by
  have hget := fenceOf_eq_some.mp hfence
  have hclause : Filter.accepts (fenceClause token) doc = true := by
    simp only [Filter.accepts, fencedFilter, Clause.and, List.all_cons, List.all_nil,
      Bool.and_true, Bool.and_eq_true] at h
    exact h.2
  simpa [Filter.accepts, fenceClause, Clause.or, Clause.missing, Clause.equals, Clause.atMost,
    hget] using hclause

/-- The command of an attempt with `token`: its update carries the token, and it is fenced or may
insert. -/
def Carries {α : Type} (token : Int) (command : Mongo.Command α) : Prop :=
  ∀ filter update upsert, command.update? = some (filter, update, upsert) →
    fenceOf update.set = some token ∧ (upsert = true ∨ ∃ base, filter = fencedFilter base token)

inductive FencedMove (s : Store) : Store → Prop where
  | nothing : FencedMove s s
  | updated {slot : Nat} {doc doc' : Document} {update : Update} {token : Int} :
      fenceOf update.set = some token → s.collection.doc slot = some doc →
      (∀ fence, fenceOf doc = some fence → fence ≤ token) → fenceOf doc' = some token →
      FencedMove s ⟨s.collection.replace slot doc', ⟨slot, some doc, update⟩ :: s.landed⟩
  | inserted {doc' : Document} {update : Update} {token : Int} :
      fenceOf update.set = some token → fenceOf doc' = some token →
      FencedMove s
        ⟨s.collection.insert doc', ⟨s.collection.slots.length, none, update⟩ :: s.landed⟩

theorem fence_le_of_nothingNewer {α : Type} {command : Mongo.Command α} {s : Store}
    {filter : Filter} {update : Update} {slot : Nat} {token : Int}
    (h : nothingNewer command s = true) (hcommand : command.update? = some (filter, update, true))
    (htoken : fenceOf update.set = some token) (hdoc : s.collection.doc slot = some doc)
    (haccepts : filter.accepts doc = true) (hfence : fenceOf doc = some fence) : fence ≤ token := by
  simp only [nothingNewer, hcommand, List.all_eq_true] at h
  simpa [hfence, htoken] using h _ (Collection.mem_matching.mpr ⟨hdoc, haccepts⟩)

theorem fencedMove {α : Type} {command : Mongo.Command α} {token : Int} {s s' : Store}
    (hcarries : Carries token command) (hallowed : nothingNewer command s = true)
    (h : Effect command s s') : FencedMove s s' := by
  cases h with
  | nothing => exact .nothing
  | @updated filter update upsert slot doc hcommand hdoc haccepts =>
    obtain ⟨htoken, hfiltered⟩ := hcarries _ _ _ hcommand
    refine .updated htoken hdoc (fun fence hfence => ?_) (fenceOf_apply htoken _ _)
    rcases hfiltered with rfl | ⟨base, rfl⟩
    · exact fence_le_of_nothingNewer hallowed hcommand htoken hdoc haccepts hfence
    · exact fence_le_of_accepts haccepts hfence
  | inserted hcommand =>
    obtain ⟨htoken, _⟩ := hcarries _ _ _ hcommand
    exact .inserted htoken (fenceOf_apply htoken _ _)

structure Forward (s s' : Store) : Prop where
  grows : s.collection.slots.length ≤ s'.collection.slots.length
  fences : ∀ slot doc', slot < s.collection.slots.length → s'.collection.doc slot = some doc' →
    ∃ doc, s.collection.doc slot = some doc ∧
      ∀ fence, fenceOf doc = some fence → ∃ fence', fenceOf doc' = some fence' ∧ fence ≤ fence'

theorem Forward.refl (s : Store) : Forward s s :=
  ⟨Nat.le_refl _, fun _ doc _ hdoc => ⟨doc, hdoc, fun fence hfence =>
    ⟨fence, hfence, Int.le_refl _⟩⟩⟩

theorem Forward.trans {s₁ s₂ s₃ : Store} (h : Forward s₁ s₂) (h' : Forward s₂ s₃) :
    Forward s₁ s₃ := by
  refine ⟨Nat.le_trans h.grows h'.grows, fun slot doc₃ hslot hdoc₃ => ?_⟩
  obtain ⟨doc₂, hdoc₂, hlast⟩ := h'.fences slot doc₃ (Nat.lt_of_lt_of_le hslot h.grows) hdoc₃
  obtain ⟨doc₁, hdoc₁, hfirst⟩ := h.fences slot doc₂ hslot hdoc₂
  refine ⟨doc₁, hdoc₁, fun fence hfence => ?_⟩
  obtain ⟨fence₂, hfence₂, hle⟩ := hfirst fence hfence
  obtain ⟨fence₃, hfence₃, hle'⟩ := hlast fence₂ hfence₂
  exact ⟨fence₃, hfence₃, Int.le_trans hle hle'⟩

def InTokenOrder (newer older : Landed) : Prop :=
  newer.slot = older.slot → ∀ token token', fenceOf older.update.set = some token →
    fenceOf newer.update.set = some token' → token ≤ token'

structure Fenced (s : Store) : Prop where
  inside : ∀ landed ∈ s.landed, landed.slot < s.collection.slots.length
  held : ∀ landed ∈ s.landed, ∀ doc token, s.collection.doc landed.slot = some doc →
    fenceOf landed.update.set = some token → ∃ fence, fenceOf doc = some fence ∧ token ≤ fence
  ordered : s.landed.Pairwise InTokenOrder

theorem FencedMove.forward {s s' : Store} (h : FencedMove s s') : Forward s s' := by
  cases h with
  | nothing => exact .refl s
  | @updated slot doc doc' update token htoken hdoc hle hfence =>
    refine ⟨by simp [Collection.replace], fun other after _ hafter => ?_⟩
    rw [Collection.doc_replace (Collection.lt_of_doc hdoc)] at hafter
    split at hafter
    · next hother =>
      obtain rfl := Option.some.inj hafter
      exact ⟨doc, hother ▸ hdoc, fun fence hbefore => ⟨token, hfence, hle fence hbefore⟩⟩
    · exact (Forward.refl s).fences other after ‹_› hafter
  | inserted htoken hfence =>
    refine ⟨by simp [Collection.insert], fun other after hother hafter => ?_⟩
    rw [Collection.doc_insert, if_neg (Nat.ne_of_lt hother)] at hafter
    exact (Forward.refl s).fences other after hother hafter

theorem FencedMove.fenced {s s' : Store} (h : FencedMove s s') (hs : Fenced s) : Fenced s' := by
  cases h with
  | nothing => exact hs
  | @updated slot doc doc' update token htoken hdoc hle hfence =>
    have hlt := Collection.lt_of_doc hdoc
    refine ⟨?_, ?_, ?_⟩
    · simp only [List.forall_mem_cons, Collection.replace, List.length_set]
      exact ⟨hlt, hs.inside⟩
    · intro landed hmem after carried hafter hcarried
      rw [Collection.doc_replace hlt] at hafter
      split at hafter
      · next hslot =>
        obtain rfl := Option.some.inj hafter
        refine ⟨token, hfence, ?_⟩
        rcases List.mem_cons.mp hmem with rfl | hmem
        · exact Int.le_of_eq (Option.some.inj (hcarried.symm.trans htoken))
        · obtain ⟨fence, hbefore, hcarriedLe⟩ := hs.held landed hmem doc carried
            (hslot ▸ hdoc) hcarried
          exact Int.le_trans hcarriedLe (hle fence hbefore)
      · next hslot =>
        rcases List.mem_cons.mp hmem with rfl | hmem
        · exact absurd rfl hslot
        · exact hs.held landed hmem after carried hafter hcarried
    · refine List.pairwise_cons.mpr ⟨fun older hmem hslot carried carried' hcarried hcarried' => ?_,
        hs.ordered⟩
      obtain ⟨fence, hbefore, hcarriedLe⟩ := hs.held older hmem doc carried (hslot ▸ hdoc) hcarried
      obtain rfl := Option.some.inj (hcarried'.symm.trans htoken)
      exact Int.le_trans hcarriedLe (hle fence hbefore)
  | @inserted doc' update token htoken hfence =>
    refine ⟨?_, ?_, ?_⟩
    · intro landed hmem
      simp only [Collection.insert, List.length_append, List.length_singleton]
      rcases List.mem_cons.mp hmem with rfl | hmem
      · exact Nat.lt_succ_self _
      · exact Nat.lt_succ_of_lt (hs.inside landed hmem)
    · intro landed hmem after carried hafter hcarried
      rw [Collection.doc_insert] at hafter
      rcases List.mem_cons.mp hmem with rfl | hmem
      · rw [if_pos rfl] at hafter
        obtain rfl := Option.some.inj hafter
        exact ⟨token, hfence, Int.le_of_eq (Option.some.inj (hcarried.symm.trans htoken))⟩
      · rw [if_neg (Nat.ne_of_lt (hs.inside landed hmem))] at hafter
        exact hs.held landed hmem after carried hafter hcarried
    · refine List.pairwise_cons.mpr ⟨fun older hmem hslot => ?_, hs.ordered⟩
      exact absurd hslot.symm (Nat.ne_of_lt (hs.inside older hmem))

theorem Elsewhere.forward {s s' : Store} (h : Elsewhere s s') : Forward s s' := by
  refine ⟨h.grows, fun slot doc' hslot hdoc' => ?_⟩
  obtain ⟨doc, hdoc, hsame⟩ := h.fences slot doc' hslot hdoc'
  refine ⟨doc, hdoc, fun fence hfence => ⟨fence, ?_, Int.le_refl _⟩⟩
  rw [fenceOf_eq_some] at hfence ⊢
  rw [hsame, hfence]

theorem Elsewhere.fenced {s s' : Store} (h : Elsewhere s s') (hs : Fenced s) : Fenced s' := by
  refine ⟨fun landed hmem => Nat.lt_of_lt_of_le (hs.inside landed (h.landed ▸ hmem)) h.grows, ?_,
    h.landed ▸ hs.ordered⟩
  intro landed hmem doc' token hdoc' htoken
  rw [h.landed] at hmem
  obtain ⟨doc, hdoc, hrises⟩ := h.forward.fences landed.slot doc' (hs.inside landed hmem) hdoc'
  obtain ⟨fence, hfence, hle⟩ := hs.held landed hmem doc token hdoc htoken
  obtain ⟨fence', hfence', hle'⟩ := hrises fence hfence
  exact ⟨fence', hfence', Int.le_trans hle hle'⟩

section Calls

variable {collides : Document → Document → Bool}
  {allowed : ∀ {α : Type}, Mongo.Command α → Store → Prop} {α β : Type} {s : Store} {token : Int}

abbrev SafeWrites (collides : Document → Document → Bool)
    (allowed : ∀ {α : Type}, Mongo.Command α → Store → Prop)
    (prog : Program (Remote Mongo.Error Mongo.Command) α) (s : Store) : Prop :=
  Safe
    (Remote.semantics fun command s reply s' =>
      allowed command s ∧ Mongo.Performed collides command s reply s')
    Forward (fun _ s s' => FencedMove s s') (fun _ _ => True) prog s

theorem safe_send_bind (hallowed : ∀ {α : Type} (command : Mongo.Command α) s,
      allowed command s → nothingNewer command s = true)
    {command : Mongo.Command α} (hcarries : Carries token command) {f : α → Writing β}
    (h : ∀ value s, SafeWrites collides allowed (f value).run s) :
    SafeWrites collides allowed (send .mongo command >>= f).run s := by
  refine Safe.send_bind fun s₁ reply s₂ _ hperformed => ⟨?_, fun value _ => h value s₂, ?_⟩
  · exact fencedMove hcarries (hallowed _ _ hperformed.1) (effect_of_performed hperformed.2)
  · exact fun _ _ => trivial

theorem safe_attempt_bind (hallowed : ∀ {α : Type} (command : Mongo.Command α) s,
      allowed command s → nothingNewer command s = true)
    {command : Mongo.Command α} (hcarries : Carries token command)
    {f : Except WriteError α → Writing β}
    (h : ∀ outcome s, SafeWrites collides allowed (f outcome).run s) :
    SafeWrites collides allowed (attempt (send .mongo command) >>= f).run s := by
  refine Safe.attempt_bind (Safe.send fun s₁ reply s₂ _ hperformed => ⟨?_, h _ s₂⟩)
  exact fencedMove hcarries (hallowed _ _ hperformed.1) (effect_of_performed hperformed.2)

theorem carries_findOne (token : Int) (filter : Filter) : Carries token (.findOne filter) := nofun

theorem carries_updateOne {base : Filter} {update : Update} {token : Int} :
    Carries token (.updateOne (fencedFilter base token) (withFence update token) false) := by
  rintro _ _ _ ⟨⟩
  exact ⟨fenceOf_withFence update token, .inr ⟨base, rfl⟩⟩

theorem carries_updateOne_upsert (base : Filter) (update : Update) (token : Int) :
    Carries token (.updateOne base (withFence update token) true) := by
  rintro _ _ _ ⟨⟩
  exact ⟨fenceOf_withFence update token, .inl rfl⟩

theorem carries_findOneAndUpdate {base : Filter} {update : Update} {token : Int}
    {returnAfter : Bool} :
    Carries token
      (.findOneAndUpdate (fencedFilter base token) (withFence update token) false returnAfter) := by
  rintro _ _ _ ⟨⟩
  exact ⟨fenceOf_withFence update token, .inr ⟨base, rfl⟩⟩

theorem carries_findOneAndUpdate_upsert (base : Filter) (update : Update) (token : Int)
    (returnAfter : Bool) :
    Carries token (.findOneAndUpdate base (withFence update token) true returnAfter) := by
  rintro _ _ _ ⟨⟩
  exact ⟨fenceOf_withFence update token, .inl rfl⟩

theorem safe_leaseFenceToken_bind {object : LeaseObject} {f : Option Int → Writing β}
    (h : ∀ token s, SafeWrites collides allowed (f (some token)).run s) :
    SafeWrites collides allowed
      (ExceptT.mk (.ret (leaseFenceToken (some object))) >>= f).run s := by
  refine Safe.raising_bind ?_
  unfold leaseFenceToken
  dsimp only [ExceptT.run_mk]
  split
  · trivial
  · split
    · exact h _ s
    · trivial

variable (hallowed : ∀ {α : Type} (command : Mongo.Command α) s,
  allowed command s → nothingNewer command s = true)
include hallowed

theorem safe_rejectIfNewer (object : Option LeaseObject) (base : Filter) (token : Int) :
    SafeWrites collides allowed (rejectIfNewer object base token).run s := by
  refine safe_send_bind hallowed (carries_findOne token _) fun existing s => ?_
  split <;> trivial

theorem safe_rejectIfNewer_bind (object : Option LeaseObject) (base : Filter) (token : Int)
    {f : Unit → Writing β} (h : ∀ s, SafeWrites collides allowed (f ()).run s) :
    SafeWrites collides allowed (rejectIfNewer object base token >>= f).run s :=
  Safe.then (safe_rejectIfNewer hallowed object base token) (fun _ s _ => h s)
    (fun _ _ _ => trivial)

theorem safe_upsertOrReject (object : Option LeaseObject) (base : Filter) (token : Int)
    {command : Mongo.Command α} (hcarries : Carries token command) :
    SafeWrites collides allowed (upsertOrReject object base token command).run s := by
  refine safe_attempt_bind hallowed hcarries fun outcome s => ?_
  cases outcome with
  | ok result => trivial
  | error error =>
    dsimp only
    split
    · exact safe_rejectIfNewer_bind hallowed object base token fun _ => trivial
    · trivial

theorem safe_fencedUpdateOne (object : LeaseObject) (base : Filter) (update : Update)
    (upsert : Bool) :
    SafeWrites collides allowed (fencedUpdateOne (some object) base update upsert).run s := by
  refine safe_leaseFenceToken_bind fun token s => ?_
  refine safe_send_bind hallowed carries_updateOne fun result s => ?_
  split
  · trivial
  · refine safe_rejectIfNewer_bind hallowed _ base token fun s => ?_
    split
    · exact safe_upsertOrReject hallowed _ base token (carries_updateOne_upsert base update token)
    · trivial

theorem safe_fencedFindOneAndUpdate (object : LeaseObject) (base : Filter) (update : Update)
    (upsert returnAfter : Bool) :
    SafeWrites collides allowed
      (fencedFindOneAndUpdate (some object) base update upsert returnAfter).run s := by
  refine safe_leaseFenceToken_bind fun token s => ?_
  refine safe_send_bind hallowed carries_findOneAndUpdate
    fun result s => ?_
  split
  · trivial
  · refine safe_rejectIfNewer_bind hallowed _ base token fun s => ?_
    split
    · exact safe_upsertOrReject hallowed _ base token
        (carries_findOneAndUpdate_upsert base update token returnAfter)
    · trivial

theorem safe_program (writeCall : WriteCall) :
    SafeWrites collides allowed writeCall.program s := by
  cases writeCall with
  | updateOne object base update upsert =>
    have h : SafeWrites collides allowed (fencedUpdateOne (some object) base update upsert).run s :=
      safe_fencedUpdateOne hallowed object base update upsert
    exact Safe.bind (h.mono fun _ _ _ => trivial)
  | findOneAndUpdate object base update upsert returnAfter =>
    have h : SafeWrites collides allowed
        (fencedFindOneAndUpdate (some object) base update upsert returnAfter).run s :=
      safe_fencedFindOneAndUpdate hallowed object base update upsert returnAfter
    exact Safe.bind (h.mono fun _ _ _ => trivial)

end Calls

theorem fenced_fresh {collection : Collection} : Fenced ⟨collection, []⟩ :=
  ⟨nofun, nofun, .nil⟩

/-- As long as no upsert comes upon a document with a newer fence, a document's fence never
decreases from one moment to a later one, and its updates land in the order of their tokens. -/
theorem fence_monotone {collides : Document → Document → Bool} {collection : Collection}
    {pool pool' : Pool (Remote Mongo.Error Mongo.Command) Unit Store}
    (run : WriteRun collides (fun command s => nothingNewer command s = true) collection pool)
    (later : Relation.ReflTransGen
      (Pool.Step
        (Remote.semantics fun command s reply s' =>
          nothingNewer command s = true ∧ Mongo.Performed collides command s reply s')
        Attempts Elsewhere) pool pool') :
    (∀ slot doc doc' fence, pool.shared.collection.doc slot = some doc →
      pool'.shared.collection.doc slot = some doc' → fenceOf doc = some fence →
        ∃ fence', fenceOf doc' = some fence' ∧ fence ≤ fence') ∧
    pool.shared.landed.Pairwise InTokenOrder := by
  have hsafe : ∀ prog s, Fenced s → Attempts s prog →
      SafeWrites collides (fun command s => nothingNewer command s = true) prog s := by
    rintro _ s _ ⟨writeCall, rfl⟩
    exact safe_program (fun _ _ h => h) writeCall
  obtain ⟨hfenced, hforward⟩ := Pool.Run.invariant Fenced (fun _ s s' => FencedMove s s')
    (fun _ _ _ h h' => h.trans h') Forward.refl (fun _ _ hs h => ⟨h.forward, h.fenced hs⟩)
    (fun _ _ _ hs h => ⟨h.forward, h.fenced hs⟩) hsafe fenced_fresh run later
  refine ⟨fun slot doc doc' fence hdoc hdoc' hfence => ?_, hfenced.ordered⟩
  obtain ⟨before, hbefore, hrises⟩ :=
    hforward.fences slot doc' (Collection.lt_of_doc hdoc) hdoc'
  obtain rfl := Option.some.inj (hdoc.symm.trans hbefore)
  exact hrises fence hfence

/-! Three attempts at one briefing, with tokens 1, 2 and 3. -/

def sampleObject (token : Int) : LeaseObject where
  lease :=
    { logicalKey := "daily.briefing.requested|user:u1|date:d1"
      owner := "worker"
      token := token.repr
      messageId := "1-0"
      eventId := "e1"
      eventType := "daily.briefing.requested"
      retryCount := 0 }

def sampleFilter : Filter := [.equals "userId" (.str "u1"), .equals "dateKey" (.str "d1")]

def sampleCollides (doc other : Document) : Bool :=
  doc.get "userId" = other.get "userId" && doc.get "dateKey" = other.get "dateKey"

def sampleCall (token : Int) (body : String) : WriteCall :=
  .updateOne (sampleObject token) sampleFilter ⟨[("body", .str body)], [], []⟩ true

def samplePool : Pool (Remote Mongo.Error Mongo.Command) Unit Store :=
  ⟨[(sampleCall 1 "old").program, (sampleCall 2 "new").program, (sampleCall 3 "newest").program],
    ⟨⟨[]⟩, []⟩⟩

def samplePoolAfter (order : List Nat) : Pool (Remote Mongo.Error Mongo.Command) Unit Store :=
  samplePool.turns (Mongo.Command.answer sampleCollides) order

theorem samplePool_run {allowed : ∀ {α : Type}, Mongo.Command α → Store → Prop} :
    WriteRun sampleCollides allowed ⟨[]⟩ samplePool :=
  ((Relation.ReflTransGen.single (.spawn ⟨sampleCall 3 "newest", rfl⟩)).tail
    (.spawn ⟨sampleCall 2 "new", rfl⟩)).tail (.spawn ⟨sampleCall 1 "old", rfl⟩)

def remoteNothingNewer {β : Type} (command : Remote Mongo.Error Mongo.Command β) (s : Store) :
    Bool :=
  match command with
  | .send command => nothingNewer command s

theorem answer_performed {collides : Document → Document → Bool} {β : Type}
    (command : Remote Mongo.Error Mongo.Command β) (s : Store)
    (h : remoteNothingNewer command s = true) :
    Remote.semantics (fun command s reply s' =>
        nothingNewer command s = true ∧ Mongo.Performed collides command s reply s')
      command s (Mongo.Command.answer collides command s).1
      (Mongo.Command.answer collides command s).2 := by
  cases command with
  | send command => exact ⟨h, 0, .answered⟩

theorem fence_monotone_sample :
    ((samplePoolAfter [1, 1, 1]).shared.collection.doc 0).bind fenceOf = some 2 ∧
      (∀ slot doc doc' fence, (samplePoolAfter [1, 1, 1]).shared.collection.doc slot = some doc →
        ((samplePoolAfter [1, 1, 1]).turns (Mongo.Command.answer sampleCollides)
          [0, 2, 0]).shared.collection.doc slot = some doc' → fenceOf doc = some fence →
          ∃ fence', fenceOf doc' = some fence' ∧ fence ≤ fence') ∧
      (samplePoolAfter [1, 1, 1]).shared.landed.Pairwise InTokenOrder :=
  ⟨by decide +kernel,
    fence_monotone
      ((samplePool_run).trans
        (Pool.turns_run remoteNothingNewer answer_performed [1, 1, 1] _ (by decide +kernel)))
      (Pool.turns_run remoteNothingNewer answer_performed [0, 2, 0] _ (by decide +kernel))⟩

/-- The attempt with token 1 finds no document. Before its upsert the attempt with token 2 inserts
one, and the upsert overwrites it. -/
theorem upsert_lands_on_newer :
    ∃ pool pool', WriteRun sampleCollides (fun _ _ => True) ⟨[]⟩ pool ∧
      Relation.ReflTransGen
        (Pool.Step
          (Remote.semantics fun command s reply s' =>
            True ∧ Mongo.Performed sampleCollides command s reply s')
          Attempts Elsewhere) pool pool' ∧
      (pool.shared.collection.doc 0).bind fenceOf = some 2 ∧
      (pool'.shared.collection.doc 0).bind fenceOf = some 1 ∧
      pool'.shared.landed.map (fun landed => (landed.slot, fenceOf landed.update.set)) =
        [(0, some 1), (0, some 2)] := by
  have performed : ∀ {β : Type} (command : Remote Mongo.Error Mongo.Command β) (s : Store),
      true = true → Remote.semantics (fun command s reply s' =>
          True ∧ Mongo.Performed sampleCollides command s reply s')
        command s (Mongo.Command.answer sampleCollides command s).1
        (Mongo.Command.answer sampleCollides command s).2 := by
    rintro _ ⟨command⟩ s _
    exact ⟨trivial, 0, .answered⟩
  refine ⟨samplePoolAfter [0, 0, 1, 1, 1],
    (samplePoolAfter [0, 0, 1, 1, 1]).turns (Mongo.Command.answer sampleCollides) [0],
    (samplePool_run).trans ?_, ?_, by decide +kernel, by decide +kernel, by decide +kernel⟩
  · exact Pool.turns_run (fun _ _ => true) performed [0, 0, 1, 1, 1] _ (by decide +kernel)
  · exact Pool.turns_run (fun _ _ => true) performed [0] _ (by decide +kernel)

end AiBuddy.Queue.MongoFence
