import AiBuddy.Queue.MongoFence.SharedDocument
import AiBuddy.Queue.MongoFence.Proofs.Writes

/-!
# When two attempts at one document both take effect

A call that meets no newer fence lands with its first command. One that meets a newer
fence never returns. So both land exactly when they come in the order of their tokens.
-/

namespace AiBuddy.Queue.MongoFence

open Mongo Program JobLease

/-! ## Filters that mean one document -/

section Filters

variable {collection : Collection} {slot : Nat} {doc : Document} {filter : Filter} {choice : Nat}

theorem select_of_alone (hdoc : collection.doc slot = some doc)
    (haccepts : filter.accepts doc = true)
    (halone : ∀ slot' doc', collection.doc slot' = some doc' → filter.accepts doc' = true →
      slot' = slot) : collection.select choice filter = some (slot, doc) := by
  have hmem : (slot, doc) ∈ collection.matching filter :=
    Collection.mem_matching.mpr ⟨hdoc, haccepts⟩
  have hpos : 0 < (collection.matching filter).length := List.length_pos_of_mem hmem
  have hlt := Nat.mod_lt choice hpos
  have hget := List.getElem?_eq_getElem hlt
  generalize (collection.matching filter)[choice % (collection.matching filter).length] = found
    at hget
  obtain ⟨slot', doc'⟩ := found
  obtain ⟨hdoc', haccepts'⟩ := Collection.mem_matching.mp (List.mem_of_getElem? hget)
  obtain rfl := halone slot' doc' hdoc' haccepts'
  obtain rfl := Option.some.inj (hdoc.symm.trans hdoc')
  exact hget

theorem select_of_none
    (h : ∀ slot' doc', collection.doc slot' = some doc' → filter.accepts doc' = false) :
    collection.select choice filter = none := by
  have hnil : collection.matching filter = [] := by
    apply List.eq_nil_iff_forall_not_mem.mpr
    rintro ⟨slot', doc'⟩ hmem
    obtain ⟨hdoc, haccepts⟩ := Collection.mem_matching.mp hmem
    rw [h slot' doc' hdoc] at haccepts
    cases haccepts
  rw [Collection.select, hnil]
  rfl

theorem probeFilter_accepts (h : filter.accepts doc = true) :
    (probeFilter filter).accepts doc = true := by
  have hclause := List.all_eq_true.mp h
  unfold probeFilter
  split
  · next clause hfind =>
    simpa [Filter.accepts] using hclause clause (List.mem_of_find?_eq_some hfind)
  · dsimp only
    split
    · exact h
    · apply List.all_eq_true.mpr
      intro clause hmem
      obtain ⟨key, -, hfind⟩ := List.mem_filterMap.mp hmem
      exact hclause clause (List.mem_of_find?_eq_some hfind)

theorem fencedFilter_accepts {token : Int} (h : filter.accepts doc = true)
    (hfence : doc.get fenceField = none ∨ ∃ fence, doc.get fenceField = some (.int fence)) :
    (fencedFilter filter token).accepts doc = true ↔ ∀ fence, fenceOf doc = some fence →
      fence ≤ token := by
  have hsplit : (fencedFilter filter token).accepts doc = (fenceClause token).accepts doc := by
    rw [Filter.accepts] at h
    simp [Filter.accepts, fencedFilter, Clause.and, h]
  rw [hsplit]
  rcases hfence with hnone | ⟨fence, hsome⟩
  · simp [Filter.accepts, fenceClause, Clause.or, Clause.missing, fenceOf, hnone]
  · simp [Filter.accepts, fenceClause, Clause.or, Clause.missing, Clause.equals, Clause.atMost,
      fenceOf, hsome]

end Filters

/-! ## First commands -/

def Probing (writeCall : WriteCall) (token : Int)
    (prog : Program (Remote Mongo.Error Mongo.Command) (Except WriteError Unit)) : Prop :=
  ∃ (α : Type) (rest : Unit → Writing α),
    prog = ((rejectIfNewer (some writeCall.object) writeCall.base token >>= rest).run >>=
      fun result => .ret (result.map fun _ => ()))

variable {fence : Int}

variable {object : LeaseObject} {base : Filter} {update : Update} {upsert : Bool}
  {result : Except WriteError Unit}

section Commands

variable {collides : Document → Document → Bool} {writeCall : WriteCall} {token : Int} {s : Store}
  {slot : Nat} {doc : Document}

theorem leaseFenceToken_of_held (hheld : (writeCall.object.lost || writeCall.object.released) =
    false)
    (htoken : writeCall.token? = some token) :
    leaseFenceToken (some writeCall.object) = .ok (some token) := by
  have hread : Text.int? writeCall.object.lease.token = some token := htoken
  simp only [leaseFenceToken, hheld, Bool.false_eq_true, if_false, hread]

/-- What `fenced_update_one` does with the answer of its fenced command. -/
def afterUpdateOne (object : LeaseObject) (base : Filter) (update : Update) (upsert : Bool)
    (token : Int) (result : UpdateResult) : Writing UpdateResult :=
  if result.matchedCount > 0 then pure result
  else rejectIfNewer (some object) base token >>= fun _ =>
    if upsert then
      upsertOrReject (some object) base token (.updateOne base (withFence update token) true)
    else pure result

/-- What `fenced_find_one_and_update` does with the answer of its fenced command. -/
def afterFindOneAndUpdate (object : LeaseObject) (base : Filter) (update : Update)
    (upsert returnAfter : Bool) (token : Int) (result : Option Document) :
    Writing (Option Document) :=
  if result.isSome then pure result
  else rejectIfNewer (some object) base token >>= fun _ =>
    if upsert then
      upsertOrReject (some object) base token
        (.findOneAndUpdate base (withFence update token) true returnAfter)
    else pure none

theorem outcome_updateOne_eq :
    (WriteCall.updateOne object base update upsert).outcome =
      (ExceptT.bindCont (fun token? =>
        match token? with
        | none => send .mongo (.updateOne base update upsert)
        | some token =>
          send .mongo (.updateOne (fencedFilter base token) (withFence update token) false) >>=
            afterUpdateOne object base update upsert token) (leaseFenceToken (some object))) >>=
        fun result => .ret (result.map fun _ => ()) := rfl

theorem outcome_findOneAndUpdate_eq {returnAfter : Bool} :
    (WriteCall.findOneAndUpdate object base update upsert returnAfter).outcome =
      (ExceptT.bindCont (fun token? =>
        match token? with
        | none => send .mongo (.findOneAndUpdate base update upsert returnAfter)
        | some token =>
          send .mongo (.findOneAndUpdate (fencedFilter base token) (withFence update token) false
            returnAfter) >>= afterFindOneAndUpdate object base update upsert returnAfter token)
        (leaseFenceToken (some object))) >>= fun result => .ret (result.map fun _ => ()) := rfl

theorem outcome_updateOne (htoken : leaseFenceToken (some object) = .ok (some token)) :
    (WriteCall.updateOne object base update upsert).outcome =
      .call (.send (.updateOne (fencedFilter base token) (withFence update token) false))
        (fun reply =>
          ExceptT.bindCont (afterUpdateOne object base update upsert token)
            (reply.mapError .mongo) >>= fun result => .ret (result.map fun _ => ())) := by
  rw [outcome_updateOne_eq, htoken]
  rfl

theorem outcome_findOneAndUpdate {returnAfter : Bool}
    (htoken : leaseFenceToken (some object) = .ok (some token)) :
    (WriteCall.findOneAndUpdate object base update upsert returnAfter).outcome =
      .call (.send (.findOneAndUpdate (fencedFilter base token) (withFence update token) false
        returnAfter)) (fun reply =>
          ExceptT.bindCont (afterFindOneAndUpdate object base update upsert returnAfter token)
            (reply.mapError .mongo) >>= fun result => .ret (result.map fun _ => ())) := by
  rw [outcome_findOneAndUpdate_eq, htoken]
  rfl

theorem outcome_eq_call (hheld : (writeCall.object.lost || writeCall.object.released) = false)
    (htoken : writeCall.token? = some token) :
    ∃ (α : Type) (command : Mongo.Command α) (next : Except Mongo.Error α →
        Program (Remote Mongo.Error Mongo.Command) (Except WriteError Unit)),
      writeCall.outcome = .call (.send command) next ∧
      (∀ before after s', s.write collides 0 (fencedFilter writeCall.base token)
          (withFence writeCall.update token) false = (.ok (some (some before, after)), s') →
        next (command.run collides 0 s).1 = .ret (.ok ()) ∧ (command.run collides 0 s).2 = s') ∧
      (s.write collides 0 (fencedFilter writeCall.base token)
          (withFence writeCall.update token) false = (.ok none, s) →
        Probing writeCall token (next (command.run collides 0 s).1) ∧
          (command.run collides 0 s).2 = s) := by
  have hlease := leaseFenceToken_of_held hheld htoken
  cases writeCall with
  | updateOne object base update upsert =>
    refine ⟨_, _, _, outcome_updateOne hlease, ?_, ?_⟩
    · intro before after s' hwrite
      simp only [WriteCall.base, WriteCall.update] at hwrite
      simp only [Mongo.Command.run, hwrite, and_true]
      rfl
    · intro hwrite
      simp only [WriteCall.base, WriteCall.update] at hwrite
      simp only [Mongo.Command.run, hwrite, and_true]
      exact ⟨_, _, rfl⟩
  | findOneAndUpdate object base update upsert returnAfter =>
    refine ⟨_, _, _, outcome_findOneAndUpdate hlease, ?_, ?_⟩
    · intro before after s' hwrite
      simp only [WriteCall.base, WriteCall.update] at hwrite
      simp only [Mongo.Command.run, hwrite, and_true]
      cases returnAfter <;> rfl
    · intro hwrite
      simp only [WriteCall.base, WriteCall.update] at hwrite
      simp only [Mongo.Command.run, hwrite, and_true]
      exact ⟨_, _, rfl⟩

theorem outcome_ne_ret (hheld : (writeCall.object.lost || writeCall.object.released) = false)
    (htoken : writeCall.token? = some token) :
    writeCall.outcome ≠ .ret result := by
  have hlease := leaseFenceToken_of_held hheld htoken
  intro hreturned
  cases writeCall with
  | updateOne object base update upsert =>
    cases (outcome_updateOne hlease).symm.trans hreturned
  | findOneAndUpdate object base update upsert returnAfter =>
    cases (outcome_findOneAndUpdate hlease).symm.trans hreturned

theorem probing_rejects
    {prog : Program (Remote Mongo.Error Mongo.Command) (Except WriteError Unit)}
    (hprog : Probing writeCall token prog) (hdoc : s.collection.doc slot = some doc)
    (haccepts : writeCall.base.accepts doc = true)
    (halone : ∀ slot' doc', s.collection.doc slot' = some doc' →
      (probeFilter writeCall.base).accepts doc' = true → slot' = slot)
    (hfence : fenceOf doc = some fence) (hnewer : token < fence) :
    ∃ (α : Type) (command : Mongo.Command α) (next : Except Mongo.Error α →
        Program (Remote Mongo.Error Mongo.Command) (Except WriteError Unit)) (error : WriteError),
      prog = .call (.send command) next ∧ next (command.run collides 0 s).1 = .ret (.error error) ∧
        (command.run collides 0 s).2 = s := by
  obtain ⟨α, rest, rfl⟩ := hprog
  have hselect : s.collection.select 0 (probeFilter writeCall.base) = some (slot, doc) :=
    select_of_alone hdoc (probeFilter_accepts haccepts) halone
  have hnumber : documentFence (some doc) = fence := by
    simp [documentFence, fenceOf_eq_some.mp hfence, intOrZero]
  refine ⟨_, .findOne (probeFilter writeCall.base), fun reply =>
    (ExceptT.bindCont rest =<< (ExceptT.bindCont (fun existing =>
      if existing.isSome && documentFence existing > token then
        throw (.staleOwnership (((some writeCall.object).map (·.lease.logicalKey)).getD "job")
          "stale_fence")
      else pure ()) (reply.mapError .mongo))) >>= fun result => .ret (result.map fun _ => ()),
    .staleOwnership writeCall.object.lease.logicalKey "stale_fence", rfl, ?_, rfl⟩
  simp only [Mongo.Command.run, hselect, Option.map_some]
  have hguard : ((some doc).isSome && decide (documentFence (some doc) > token)) = true := by
    rw [hnumber]
    simpa using hnewer
  simp only [Except.mapError, ExceptT.bindCont, hguard, if_true]
  rfl

theorem clashes_false {collection : Collection} {slot : Nat} {doc : Document} :
    collection.clashes (fun _ _ => false) slot doc = false := by
  simp [Collection.clashes, Option.any_false]

end Commands

/-! ## Turns -/

structure Means (writeCall : WriteCall) (slot : Nat) (doc : Document) (s : Store) : Prop where
  present : s.collection.doc slot = some doc
  fence : doc.get fenceField = none ∨ ∃ fence, doc.get fenceField = some (.int fence)
  accepts : writeCall.base.accepts doc = true
  alone : ∀ slot' doc', s.collection.doc slot' = some doc' →
    (probeFilter writeCall.base).accepts doc' = true → slot' = slot

theorem Means.replace {writeCall : WriteCall} {slot : Nat} {doc doc' : Document} {s : Store}
    (h : Means writeCall slot doc s) (hfence : fenceOf doc' = some fence)
    (haccepts : writeCall.base.accepts doc' = true) (landed : List Landed) :
    Means writeCall slot doc' ⟨s.collection.replace slot doc', landed⟩ := by
  have hslot := Collection.lt_of_doc h.present
  refine ⟨?_, .inr ⟨fence, fenceOf_eq_some.mp hfence⟩, haccepts, ?_⟩
  · exact (Collection.doc_replace hslot doc' slot).trans (if_pos rfl)
  · intro other found hfound hprobe
    rw [Collection.doc_replace hslot] at hfound
    split at hfound
    · assumption
    · exact h.alone other found hfound hprobe

section Turns

variable {writeCall : WriteCall} {slot : Nat} {doc : Document} {s : Store} {token : Int}
  {pool : Pool (Remote Mongo.Error Mongo.Command) (Except WriteError Unit) Store} {i : Nat}

abbrev sharedTurn (i : Nat)
    (pool : Pool (Remote Mongo.Error Mongo.Command) (Except WriteError Unit) Store) :
    Pool (Remote Mongo.Error Mongo.Command) (Except WriteError Unit) Store :=
  pool.turn (Mongo.Command.answer fun _ _ => false) i

theorem turn_of_ret (h : pool.threads[i]? = some (.ret result)) : sharedTurn i pool = pool := by
  simp only [sharedTurn, Pool.turn, h]

theorem turn_of_none (h : pool.threads[i]? = none) : sharedTurn i pool = pool := by
  simp only [sharedTurn, Pool.turn, h]

theorem turn_of_call {α : Type} {command : Mongo.Command α} {next : Except Mongo.Error α →
      Program (Remote Mongo.Error Mongo.Command) (Except WriteError Unit)}
    (h : pool.threads[i]? = some (.call (.send command) next)) :
    sharedTurn i pool =
      ⟨pool.threads.set i (next (command.run (fun _ _ => false) 0 pool.shared).1),
        (command.run (fun _ _ => false) 0 pool.shared).2⟩ := by
  simp only [sharedTurn, Pool.turn, h]
  rfl

theorem Means.write_misses (h : Means writeCall slot doc s) (hfence : fenceOf doc = some fence)
    (hnewer : token < fence) (hconsistent : (withFence writeCall.update token).conflicts = false) :
    s.write (fun _ _ => false) 0 (fencedFilter writeCall.base token)
      (withFence writeCall.update token) false = (.ok none, s) := by
  have hselect : s.collection.select 0 (fencedFilter writeCall.base token) = none := by
    apply select_of_none
    intro slot' doc' hdoc'
    rw [← Bool.not_eq_true]
    intro haccepts
    have hbase := probeFilter_accepts (accepts_fencedFilter haccepts)
    obtain rfl := h.alone slot' doc' hdoc' hbase
    obtain rfl := Option.some.inj (h.present.symm.trans hdoc')
    have hle := (fencedFilter_accepts h.accepts h.fence).mp haccepts fence hfence
    exact absurd hle (Int.not_le.mpr hnewer)
  simp [Store.write, hconsistent, hselect]

theorem Means.write_lands (h : Means writeCall slot doc s)
    (hfree : ∀ fence, fenceOf doc = some fence → fence ≤ token)
    (hconsistent : (withFence writeCall.update token).conflicts = false) :
    ∃ landed, s.write (fun _ _ => false) 0 (fencedFilter writeCall.base token)
      (withFence writeCall.update token) false =
        (.ok (some (some doc, (withFence writeCall.update token).apply false doc)),
          ⟨s.collection.replace slot ((withFence writeCall.update token).apply false doc),
            landed⟩) := by
  have hselect : s.collection.select 0 (fencedFilter writeCall.base token) = some (slot, doc) := by
    apply select_of_alone h.present ((fencedFilter_accepts h.accepts h.fence).mpr hfree)
    intro slot' doc' hdoc' haccepts
    exact h.alone slot' doc' hdoc' (probeFilter_accepts (accepts_fencedFilter haccepts))
  refine ⟨⟨slot, some doc, withFence writeCall.update token⟩ :: s.landed, ?_⟩
  simp only [Store.write, hconsistent, Bool.false_eq_true, if_false, hselect, clashes_false]

theorem turn_lands (h : Means writeCall slot doc pool.shared)
    (hheld : (writeCall.object.lost || writeCall.object.released) = false)
    (htoken : writeCall.token? = some token)
    (hconsistent : (withFence writeCall.update token).conflicts = false)
    (hfree : ∀ fence, fenceOf doc = some fence → fence ≤ token)
    (hthread : pool.threads[i]? = some writeCall.outcome) :
    ∃ landed, sharedTurn i pool =
      ⟨pool.threads.set i (.ret (.ok ())),
        ⟨pool.shared.collection.replace slot (writeCall.after doc), landed⟩⟩ := by
  obtain ⟨α, command, next, houtcome, hlands, -⟩ :=
    outcome_eq_call hheld htoken
  obtain ⟨landed, hwrite⟩ := h.write_lands hfree hconsistent
  obtain ⟨hnext, hshared⟩ := hlands _ _ _ hwrite
  have hafter : writeCall.after doc = (withFence writeCall.update token).apply false doc := by
    simp only [WriteCall.after, htoken]
  refine ⟨landed, ?_⟩
  rw [turn_of_call (houtcome ▸ hthread), hnext, hshared, hafter]

theorem turn_misses (h : Means writeCall slot doc pool.shared)
    (hheld : (writeCall.object.lost || writeCall.object.released) = false)
    (htoken : writeCall.token? = some token)
    (hconsistent : (withFence writeCall.update token).conflicts = false)
    (hfence : fenceOf doc = some fence) (hnewer : token < fence)
    (hthread : pool.threads[i]? = some writeCall.outcome) :
    ∃ prog, Probing writeCall token prog ∧
      sharedTurn i pool = ⟨pool.threads.set i prog, pool.shared⟩ := by
  obtain ⟨α, command, next, houtcome, -, hmisses⟩ :=
    outcome_eq_call hheld htoken
  obtain ⟨hprobing, hshared⟩ := hmisses (h.write_misses hfence hnewer hconsistent)
  refine ⟨_, hprobing, ?_⟩
  rw [turn_of_call (houtcome ▸ hthread), hshared]

theorem turn_rejects (h : Means writeCall slot doc pool.shared)
    {prog : Program (Remote Mongo.Error Mongo.Command) (Except WriteError Unit)}
    (hprog : Probing writeCall token prog) (hfence : fenceOf doc = some fence)
    (hnewer : token < fence) (hthread : pool.threads[i]? = some prog) :
    ∃ error, sharedTurn i pool = ⟨pool.threads.set i (.ret (.error error)), pool.shared⟩ := by
  obtain ⟨α, command, next, error, hcall, hnext, hshared⟩ :=
    probing_rejects hprog h.present h.accepts h.alone hfence hnewer
  refine ⟨error, ?_⟩
  rw [turn_of_call (hcall ▸ hthread), hnext, hshared]

theorem outcome_of_no_token (hheld : (writeCall.object.lost || writeCall.object.released) = false)
    (htoken : writeCall.token? = none) : ∃ error, writeCall.outcome = .ret (.error error) := by
  have hread : Text.int? writeCall.object.lease.token = none := htoken
  have hlease : leaseFenceToken (some writeCall.object) =
      .error (.staleOwnership writeCall.object.lease.logicalKey "bad_fence") := by
    simp only [leaseFenceToken, hheld, Bool.false_eq_true, if_false, hread]
  refine ⟨.staleOwnership writeCall.object.lease.logicalKey "bad_fence", ?_⟩
  cases writeCall with
  | updateOne object base update upsert =>
    have hobject : leaseFenceToken (some object) =
      .error (.staleOwnership object.lease.logicalKey "bad_fence") := hlease
    rw [outcome_updateOne_eq, hobject]
    rfl
  | findOneAndUpdate object base update upsert returnAfter =>
    have hobject : leaseFenceToken (some object) =
      .error (.staleOwnership object.lease.logicalKey "bad_fence") := hlease
    rw [outcome_findOneAndUpdate_eq, hobject]
    rfl

end Turns

/-! ## Calls below the fence -/

/-- The call at `i` has met a fence above its token, or will meet it. The call at `j` may still
land. -/
structure Barred (writeCall other : WriteCall) (token : Int) (i j : Nat) (slot : Nat)
    (doc : Document)
    (pool : Pool (Remote Mongo.Error Mongo.Command) (Except WriteError Unit) Store)
    (current : Document) (fence : Int) : Prop where
  means : Means writeCall slot current pool.shared
  fenced : fenceOf current = some fence
  newer : token < fence
  thread : pool.threads[i]? = some writeCall.outcome ∨
    (∃ prog, Probing writeCall token prog ∧ pool.threads[i]? = some prog) ∨
    ∃ error, pool.threads[i]? = some (.ret (.error error))
  other : (current = doc ∧ Means other slot current pool.shared ∧
      pool.threads[j]? = some other.outcome) ∨
    (∃ token' prog, Means other slot current pool.shared ∧ token' < fence ∧
      Probing other token' prog ∧ pool.threads[j]? = some prog) ∨
    ∃ result, pool.threads[j]? = some (.ret result)
  rest : ∀ k, k ≠ i → k ≠ j → pool.threads[k]? = none

section Pairs

variable {writeCall other : WriteCall} {token token' : Int} {i j slot : Nat} {doc : Document}
  {collection : Collection}
  {pool : Pool (Remote Mongo.Error Mongo.Command) (Except WriteError Unit) Store}

theorem getElem?_set_of_some {α : Type*} {items : List α} {k : Nat} {old : α}
    (h : items[k]? = some old) {new : α} : (items.set k new)[k]? = some new := by
  obtain ⟨hlt, -⟩ := List.getElem?_eq_some_iff.mp h
  exact List.getElem?_set_self hlt

theorem fenceOf_after (htoken : writeCall.token? = some token) (doc : Document) :
    fenceOf (writeCall.after doc) = some token := by
  simp only [WriteCall.after, htoken]
  exact fenceOf_apply (fenceOf_withFence writeCall.update token) false doc

theorem Barred.turn (hcall : Addresses writeCall other slot doc collection)
    (hother : Addresses other writeCall slot doc collection) (hij : i ≠ j)
    (htoken : writeCall.token? = some token) {current : Document}
    (h : Barred writeCall other token i j slot doc pool current fence) (k : Nat) :
    ∃ current' fence', Barred writeCall other token i j slot doc (sharedTurn k pool) current'
      fence' := by
  by_cases hi : k = i
  · subst hi
    -- the barred call takes its turn: it probes, then raises
    have hset : ∀ (old prog : Program (Remote Mongo.Error Mongo.Command) (Except WriteError Unit)),
        pool.threads[k]? = some old →
        (pool.threads.set k prog)[k]? = some prog ∧
        (pool.threads.set k prog)[j]? = pool.threads[j]? ∧
        ∀ l, l ≠ k → l ≠ j → (pool.threads.set k prog)[l]? = none := by
      intro old prog hold
      refine ⟨getElem?_set_of_some hold, List.getElem?_set_ne hij, fun l hl hlj => ?_⟩
      rw [List.getElem?_set_ne (Ne.symm hl), h.rest l hl hlj]
    rcases h.thread with hwaiting | ⟨prog, hprobing, hthread⟩ | ⟨error, hthread⟩
    · obtain ⟨prog, hprobing, hturn⟩ := turn_misses h.means hcall.held htoken
        (hcall.consistent token) h.fenced h.newer hwaiting
      obtain ⟨hself, hj, hrest⟩ := hset _ prog hwaiting
      refine ⟨current, fence, ?_⟩
      rw [hturn]
      exact ⟨h.means, h.fenced, h.newer, .inr (.inl ⟨prog, hprobing, hself⟩), hj ▸ h.other, hrest⟩
    · obtain ⟨error, hturn⟩ := turn_rejects h.means hprobing h.fenced h.newer hthread
      obtain ⟨hself, hj, hrest⟩ := hset _ (.ret (.error error)) hthread
      refine ⟨current, fence, ?_⟩
      rw [hturn]
      exact ⟨h.means, h.fenced, h.newer, .inr (.inr ⟨error, hself⟩), hj ▸ h.other, hrest⟩
    · rw [turn_of_ret hthread]
      exact ⟨current, fence, h⟩
  · by_cases hj : k = j
    · subst hj
      have hset : ∀ (old prog : Program (Remote Mongo.Error Mongo.Command)
            (Except WriteError Unit)), pool.threads[k]? = some old →
          (pool.threads.set k prog)[k]? = some prog ∧
          (pool.threads.set k prog)[i]? = pool.threads[i]? ∧
          ∀ l, l ≠ i → l ≠ k → (pool.threads.set k prog)[l]? = none := by
        intro old prog hold
        refine ⟨getElem?_set_of_some hold, List.getElem?_set_ne hi, fun l hl hlk => ?_⟩
        rw [List.getElem?_set_ne (Ne.symm hlk), h.rest l hl hlk]
      rcases h.other with ⟨hsame, hmeans, hwaiting⟩ | ⟨token', prog, hmeans, hnewer, hprobing,
        hthread⟩ | ⟨result, hthread⟩
      · cases htoken' : other.token? with
        | none =>
          obtain ⟨error, herror⟩ := outcome_of_no_token hother.held htoken'
          rw [turn_of_ret (herror ▸ hwaiting)]
          exact ⟨current, fence, h⟩
        | some token' =>
          by_cases hfree : fence ≤ token'
          · -- the other call lands, and the fence rises to its token
            have hall : ∀ found, fenceOf current = some found → found ≤ token' := by
              intro found hfound
              rw [h.fenced] at hfound
              exact Option.some.inj hfound ▸ hfree
            obtain ⟨landed, hturn⟩ := turn_lands hmeans hother.held htoken'
              (hother.consistent token') hall hwaiting
            obtain ⟨hself, hi', hrest⟩ := hset _ (.ret (.ok ())) hwaiting
            have hfence := fenceOf_after htoken' current
            refine ⟨other.after current, token', ?_⟩
            rw [hturn]
            refine ⟨h.means.replace hfence (hsame ▸ hcall.after) landed, hfence,
              Int.lt_of_lt_of_le h.newer hfree, hi' ▸ h.thread, .inr (.inr ⟨_, hself⟩), hrest⟩
          · obtain ⟨prog, hprobing, hturn⟩ := turn_misses hmeans hother.held htoken'
              (hother.consistent token') h.fenced (Int.not_le.mp hfree) hwaiting
            obtain ⟨hself, hi', hrest⟩ := hset _ prog hwaiting
            refine ⟨current, fence, ?_⟩
            rw [hturn]
            exact ⟨h.means, h.fenced, h.newer, hi' ▸ h.thread,
              .inr (.inl ⟨token', prog, hmeans, Int.not_le.mp hfree, hprobing, hself⟩), hrest⟩
      · obtain ⟨error, hturn⟩ := turn_rejects hmeans hprobing h.fenced hnewer hthread
        obtain ⟨hself, hi', hrest⟩ := hset _ (.ret (.error error)) hthread
        refine ⟨current, fence, ?_⟩
        rw [hturn]
        exact ⟨h.means, h.fenced, h.newer, hi' ▸ h.thread, .inr (.inr ⟨_, hself⟩), hrest⟩
      · rw [turn_of_ret hthread]
        exact ⟨current, fence, h⟩
    · rw [turn_of_none (h.rest k hi hj)]
      exact ⟨current, fence, h⟩

abbrev sharedTurns (order : List Nat)
    (pool : Pool (Remote Mongo.Error Mongo.Command) (Except WriteError Unit) Store) :
    Pool (Remote Mongo.Error Mongo.Command) (Except WriteError Unit) Store :=
  pool.turns (Mongo.Command.answer fun _ _ => false) order

theorem Barred.turns (hcall : Addresses writeCall other slot doc collection)
    (hother : Addresses other writeCall slot doc collection) (hij : i ≠ j)
    (htoken : writeCall.token? = some token) (order : List Nat) {current : Document}
    (h : Barred writeCall other token i j slot doc pool current fence) :
    (sharedTurns order pool).threads[i]? ≠ some (.ret (.ok ())) := by
  induction order generalizing pool current fence with
  | nil =>
    intro hok
    have hok : pool.threads[i]? = some (.ret (.ok ())) := hok
    rcases h.thread with hwaiting | ⟨prog, ⟨α, rest, hprobing⟩, hthread⟩ | ⟨error, hthread⟩
    · exact outcome_ne_ret hcall.held htoken (Option.some.inj (hwaiting.symm.trans hok))
    · rw [hthread, hprobing] at hok
      cases hok
    · rw [hthread] at hok
      cases hok
  | cons k order ih =>
    obtain ⟨current', fence', hnext⟩ := h.turn hcall hother hij htoken k
    exact ih hnext

theorem turns_of_ret (order : List Nat) (h : pool.threads[i]? = some (.ret result)) :
    (sharedTurns order pool).threads[i]? = some (.ret result) := by
  induction order generalizing pool with
  | nil => exact h
  | cons k order ih =>
    have hnext : (sharedTurn k pool).threads[i]? = some (.ret result) := by
      by_cases hk : k = i
      · subst hk
        rw [turn_of_ret h]
        exact h
      · unfold sharedTurn Pool.turn
        split
        · exact (List.getElem?_set_ne hk).trans h
        · exact h
    exact ih hnext

/-! ## Calls in turn -/

/-- The call at `i` has landed. The call at `j` will land on its document, or has. -/
structure Led (writeCall other : WriteCall) (i j slot : Nat) (doc : Document)
    (pool : Pool (Remote Mongo.Error Mongo.Command) (Except WriteError Unit) Store) : Prop where
  returned : pool.threads[i]? = some (.ret (.ok ()))
  other : (Means other slot (writeCall.after doc) pool.shared ∧
      pool.threads[j]? = some other.outcome) ∨
    (pool.shared.collection.doc slot = some (other.after (writeCall.after doc)) ∧
      pool.threads[j]? = some (.ret (.ok ())))
  rest : ∀ k, k ≠ i → k ≠ j → pool.threads[k]? = none

theorem Led.turn (hother : Addresses other writeCall slot doc collection) (hij : i ≠ j)
    (htoken : writeCall.token? = some token) (htoken' : other.token? = some token')
    (hle : token ≤ token') (h : Led writeCall other i j slot doc pool) (k : Nat) :
    Led writeCall other i j slot doc (sharedTurn k pool) := by
  by_cases hi : k = i
  · subst hi
    rw [turn_of_ret h.returned]
    exact h
  · by_cases hj : k = j
    · subst hj
      rcases h.other with ⟨hmeans, hwaiting⟩ | ⟨hdoc, hreturned⟩
      · have hfree : ∀ fence, fenceOf (writeCall.after doc) = some fence → fence ≤ token' := by
          intro fence hfence
          rw [fenceOf_after htoken] at hfence
          exact Option.some.inj hfence ▸ hle
        obtain ⟨landed, hturn⟩ := turn_lands hmeans hother.held htoken'
          (hother.consistent token') hfree hwaiting
        rw [hturn]
        refine ⟨(List.getElem?_set_ne hi).trans h.returned, .inr ⟨?_, ?_⟩, fun l hl hlk => ?_⟩
        · exact (Collection.doc_replace (Collection.lt_of_doc hmeans.present) _ slot).trans
            (if_pos rfl)
        · exact getElem?_set_of_some hwaiting
        · exact (List.getElem?_set_ne (Ne.symm hlk)).trans (h.rest l hl hlk)
      · rw [turn_of_ret hreturned]
        exact h
    · rw [turn_of_none (h.rest k hi hj)]
      exact h

theorem Led.turns (hother : Addresses other writeCall slot doc collection) (hij : i ≠ j)
    (htoken : writeCall.token? = some token) (htoken' : other.token? = some token')
    (hle : token ≤ token') (order : List Nat) (h : Led writeCall other i j slot doc pool) :
    Led writeCall other i j slot doc (sharedTurns order pool) := by
  induction order generalizing pool with
  | nil => exact h
  | cons k order ih => exact ih (h.turn hother hij htoken htoken' hle k)

/-! ## Both calls -/

structure Started (writeCall other : WriteCall) (i j slot : Nat) (doc : Document)
    (pool : Pool (Remote Mongo.Error Mongo.Command) (Except WriteError Unit) Store) : Prop where
  thread : pool.threads[i]? = some writeCall.outcome
  threadOther : pool.threads[j]? = some other.outcome
  means : Means writeCall slot doc pool.shared
  meansOther : Means other slot doc pool.shared
  rest : ∀ k, k ≠ i → k ≠ j → pool.threads[k]? = none

theorem Started.swap (h : Started writeCall other i j slot doc pool) :
    Started other writeCall j i slot doc pool :=
  ⟨h.threadOther, h.thread, h.meansOther, h.means, fun k hj hi => h.rest k hi hj⟩

theorem Started.barred (hcall : Addresses writeCall other slot doc collection)
    (hother : Addresses other writeCall slot doc collection) (hij : i ≠ j)
    (htoken : writeCall.token? = some token) (hfence : fenceOf doc = some fence)
    (hnewer : token < fence) (order : List Nat) (h : Started writeCall other i j slot doc pool) :
    (sharedTurns order pool).threads[i]? ≠ some (.ret (.ok ())) := by
  have hbarred : Barred writeCall other token i j slot doc pool doc fence :=
    ⟨h.means, hfence, hnewer, .inl h.thread, .inl ⟨rfl, h.meansOther, h.threadOther⟩, h.rest⟩
  exact hbarred.turns hcall hother hij htoken order

section Leading

variable (hcall : Addresses writeCall other slot doc collection)
  (hother : Addresses other writeCall slot doc collection) (hij : i ≠ j)
  (htoken : writeCall.token? = some token) (htoken' : other.token? = some token')
  (hfree : ∀ fence, fenceOf doc = some fence → fence ≤ token)
  (h : Started writeCall other i j slot doc pool)
include hcall hother hij htoken htoken' hfree h

omit htoken' in
theorem Started.leads :
    ∃ landed, (sharedTurn i pool) =
        ⟨pool.threads.set i (.ret (.ok ())),
          ⟨pool.shared.collection.replace slot (writeCall.after doc), landed⟩⟩ ∧
      Means other slot (writeCall.after doc) (sharedTurn i pool).shared ∧
      (sharedTurn i pool).threads[i]? = some (.ret (.ok ())) ∧
      (sharedTurn i pool).threads[j]? = some other.outcome ∧
      ∀ k, k ≠ i → k ≠ j → (sharedTurn i pool).threads[k]? = none := by
  obtain ⟨landed, hturn⟩ := turn_lands h.means hcall.held htoken (hcall.consistent token) hfree
    h.thread
  refine ⟨landed, hturn, ?_⟩
  rw [hturn]
  refine ⟨h.meansOther.replace (fenceOf_after htoken doc) hother.after landed,
    getElem?_set_of_some h.thread, (List.getElem?_set_ne hij).trans h.threadOther, fun k hi hj =>
      ?_⟩
  exact (List.getElem?_set_ne (Ne.symm hi)).trans (h.rest k hi hj)

theorem Started.follower_barred (hlt : token' < token) (post : List Nat) :
    (sharedTurns (i :: post) pool).threads[j]? ≠ some (.ret (.ok ())) := by
  obtain ⟨landed, hturn, hmeans, hreturned, hwaiting, hrest⟩ :=
    h.leads hcall hother hij htoken hfree
  have hbarred : Barred other writeCall token' j i slot doc (sharedTurn i pool)
      (writeCall.after doc) token :=
    ⟨hmeans, fenceOf_after htoken doc, hlt, .inl hwaiting, .inr (.inr ⟨_, hreturned⟩),
      fun k hj hi => hrest k hi hj⟩
  exact hbarred.turns hother hcall (Ne.symm hij) htoken' post

theorem Started.both_land (hle : token ≤ token') (post : List Nat)
    (hdone : ∃ result, (sharedTurns (i :: post) pool).threads[j]? = some (.ret result)) :
    (sharedTurns (i :: post) pool).threads[i]? = some (.ret (.ok ())) ∧
    (sharedTurns (i :: post) pool).threads[j]? = some (.ret (.ok ())) ∧
    (sharedTurns (i :: post) pool).shared.collection.doc slot =
      some (other.after (writeCall.after doc)) := by
  obtain ⟨landed, hturn, hmeans, hreturned, hwaiting, hrest⟩ :=
    h.leads hcall hother hij htoken hfree
  have hled : Led writeCall other i j slot doc (sharedTurn i pool) :=
    ⟨hreturned, .inl ⟨hmeans, hwaiting⟩, hrest⟩
  have hfinal := hled.turns hother hij htoken htoken' hle post
  refine ⟨hfinal.returned, ?_⟩
  rcases hfinal.other with ⟨-, hwaiting⟩ | ⟨hdoc, hreturned⟩
  · obtain ⟨result, hresult⟩ := hdone
    exact absurd (Option.some.inj (hwaiting.symm.trans hresult))
      (outcome_ne_ret hother.held htoken')
  · exact ⟨hreturned, hdoc⟩

end Leading

end Pairs

/-! ## Schedules -/

variable {order : List Nat}

theorem leader_split :
    (0 ∉ order ∧ 1 ∉ order) ∨
    ∃ before after leader, order = before ++ leader :: after ∧ 0 ∉ before ∧ 1 ∉ before ∧
      ((leader = 0 ∧ FirstLeads order) ∨ (leader = 1 ∧ ¬ FirstLeads order)) := by
  induction order with
  | nil => exact .inl ⟨List.not_mem_nil, List.not_mem_nil⟩
  | cons k order ih =>
    by_cases h0 : k = 0
    · subst h0
      refine .inr ⟨[], order, 0, rfl, List.not_mem_nil, List.not_mem_nil, .inl ⟨rfl, ?_⟩⟩
      rw [FirstLeads, List.idxOf_cons_self, List.idxOf_cons_ne order (by decide)]
      exact Nat.succ_pos _
    · by_cases h1 : k = 1
      · subst h1
        refine .inr ⟨[], order, 1, rfl, List.not_mem_nil, List.not_mem_nil, .inr ⟨rfl, ?_⟩⟩
        rw [FirstLeads, List.idxOf_cons_self]
        exact Nat.not_lt_zero _
      · have hsame : FirstLeads (k :: order) ↔ FirstLeads order := by
          rw [FirstLeads, FirstLeads, List.idxOf_cons_ne order h0, List.idxOf_cons_ne order h1]
          exact Nat.succ_lt_succ_iff
        rcases ih with ⟨hno0, hno1⟩ | ⟨before, after, leader, rfl, hno0, hno1, hleader⟩
        · refine .inl ⟨?_, ?_⟩
          · exact List.not_mem_cons_of_ne_of_not_mem (Ne.symm h0) hno0
          · exact List.not_mem_cons_of_ne_of_not_mem (Ne.symm h1) hno1
        · refine .inr ⟨k :: before, after, leader, rfl, ?_, ?_, ?_⟩
          · exact List.not_mem_cons_of_ne_of_not_mem (Ne.symm h0) hno0
          · exact List.not_mem_cons_of_ne_of_not_mem (Ne.symm h1) hno1
          · rw [hsame]
            exact hleader

theorem turns_of_notMem
    {pool : Pool (Remote Mongo.Error Mongo.Command) (Except WriteError Unit) Store}
    (hrest : ∀ k, k ≠ 0 → k ≠ 1 → pool.threads[k]? = none) (h0 : 0 ∉ order) (h1 : 1 ∉ order) :
    sharedTurns order pool = pool := by
  induction order with
  | nil => rfl
  | cons k order ih =>
    rw [List.mem_cons, not_or] at h0 h1
    have hturn := turn_of_none (hrest k (Ne.symm h0.1) (Ne.symm h1.1))
    calc sharedTurns (k :: order) pool
        = sharedTurns order (sharedTurn k pool) := rfl
      _ = pool := by rw [hturn, ih h0.2 h1.2]

section Schedule

variable {first second : WriteCall} {slot : Nat} {doc : Document} {collection : Collection}

theorem Shared.started (h : Shared first second slot doc collection) :
    Started first second 0 1 slot doc ⟨[first.outcome, second.outcome], ⟨collection, []⟩⟩ := by
  refine ⟨rfl, rfl, ?_, ?_, ?_⟩
  · exact ⟨h.present, h.fence, h.leading.before, h.leading.alone⟩
  · exact ⟨h.present, h.fence, h.following.before, h.following.alone⟩
  · rintro (_ | _ | k) h0 h1
    · exact absurd rfl h0
    · exact absurd rfl h1
    · rfl

theorem token_of_returned (hheld : (first.object.lost || first.object.released) = false) {i : Nat}
    {pool : Pool (Remote Mongo.Error Mongo.Command) (Except WriteError Unit) Store}
    (hthread : pool.threads[i]? = some first.outcome)
    (hok : (sharedTurns order pool).threads[i]? = some (.ret (.ok ()))) :
    ∃ token, first.token? = some token := by
  cases htoken : first.token? with
  | some token => exact ⟨token, rfl⟩
  | none =>
    obtain ⟨error, herror⟩ := outcome_of_no_token hheld htoken
    have hstays := turns_of_ret order (herror ▸ hthread)
    rw [hok] at hstays
    cases hstays

end Schedule

/-! Two chunks of one conversation finish, with tokens 1 and 2. -/

def bump : Option Value → Option Value
  | some (.int count) => some (.int (count + 1))
  | _ => some (.int 1)

def sampleChunkCall (chunk : String) (token : Int) : WriteCall :=
  .updateOne
    { lease :=
        { logicalKey := "stt.requested|chunk:" ++ chunk
          owner := "worker-" ++ chunk
          token := token.repr
          messageId := "1-0"
          eventId := "e-" ++ chunk
          eventType := "stt.requested"
          retryCount := 0 } }
    [.equals "_id" (.str "c1")] ⟨[("lastActivityAt", .str chunk)], [], [("completed", bump)]⟩ false

def sampleConversation : Document := [("_id", .str "c1"), ("completed", .int 0)]

theorem sampleChunks_shared :
    Shared (sampleChunkCall "k1" 1) (sampleChunkCall "k2" 2) 0 sampleConversation
      ⟨[some sampleConversation]⟩ := by
  have halone : ∀ (chunk : String) (token : Int) (slot : Nat) (doc : Document),
      Collection.doc ⟨[some sampleConversation]⟩ slot = some doc →
      (probeFilter (sampleChunkCall chunk token).base).accepts doc = true → slot = 0 := by
    rintro chunk token (_ | slot) doc hdoc -
    · rfl
    · cases hdoc
  refine ⟨rfl, .inl rfl, ⟨rfl, by decide +kernel, by decide +kernel, halone "k1" 1, ?_⟩,
    ⟨rfl, by decide +kernel, by decide +kernel, halone "k2" 2, ?_⟩⟩
  · intro token
    rfl
  · intro token
    rfl

end AiBuddy.Queue.MongoFence
