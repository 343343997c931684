import AiBuddy.Conversation.Proofs.PublishedStores

/-!
# A publication and the documents of others

What a publication writes is its user's. A document of another user is only met through its
fingerprint, and then it is taken over.
-/

namespace AiBuddy.Conversation

open Mongo Program
open Queue.JobLease Queue.MongoFence

abbrev SafeStore {α : Type} (inv : Store → Prop) (post : α → Store → Prop)
    (prog : Program (Remote Mongo.Error Mongo.Command) α) (s : Store) : Prop :=
  Safe (Remote.semantics (Performed collides)) Eq (fun _ _ s' => inv s') post prog s

/-- The writes of `fenced_find_one_and_update`. -/
inductive Issued (base : Filter) (update : Update) (upsert : Bool) :
    Filter → Update → Bool → Prop where
  | plain : Issued base update upsert base update upsert
  | fenced (token : Int) :
      Issued base update upsert (fencedFilter base token) (withFence update token) false
  | upserted (token : Int) : upsert = true →
      Issued base update upsert base (withFence update token) true

variable {filter : Filter}

section Fenced

variable {inv good : Store → Prop} {post : Option Document → Store → Prop}
  {object : Option LeaseObject} {base : Filter} {update : Update} {upsert : Bool} {s : Store}

theorem state_of_findOne {s s' : Store} {reply : Except Mongo.Error (Option Document)}
    (h : Performed collides (.findOne filter) s reply s') : s' = s := by
  cases effect_of_performed h with
  | nothing => rfl
  | updated hcommand => cases hcommand
  | inserted hcommand => cases hcommand

theorem safe_rejectIfNewer (token : Int) (hgood : good s) :
    SafeStore good (fun _ s' => s' = s) (rejectIfNewer object base token).run s := by
  refine Safe.send_bind ?_
  rintro s₁ reply s₂ rfl hstep
  obtain rfl := state_of_findOne hstep
  refine ⟨hgood, fun existing _ => ?_, fun error _ => rfl⟩
  split
  · exact rfl
  · exact rfl

theorem safe_fenced (hgood : ∀ s, inv s → good s)
    (hwrite : ∀ filter update' upsert' s reply s',
      Issued base update upsert filter update' upsert' → inv s →
      Wrote filter update' upsert' s reply s' → inv s' ∧
        ∀ result, reply = .ok result → (result.isSome = true ∨ upsert' = upsert) → post result s')
    (hinv : inv s) :
    SafeStore good (fun outcome s' => inv s' ∧ ∀ result, outcome = .ok result → post result s')
      (fencedFindOneAndUpdate object base update upsert true).run s := by
  unfold fencedFindOneAndUpdate
  cases leaseFenceToken object with
  | error error => exact ⟨hinv, nofun⟩
  | ok token =>
    cases token with
    | none =>
      refine Safe.send ?_
      rintro s₁ reply s₂ rfl hstep
      obtain ⟨hinv', hpost⟩ := hwrite _ _ _ _ _ _ .plain hinv (wrote_of_performed hstep)
      refine ⟨hgood _ hinv', hinv', fun result hresult => ?_⟩
      cases reply with
      | error error => cases hresult
      | ok value =>
        cases hresult
        exact hpost result rfl (.inr rfl)
    | some token =>
      refine Safe.send_bind ?_
      rintro s₁ reply s₂ rfl hstep
      obtain ⟨hinv', hpost⟩ := hwrite _ _ _ _ _ _ (.fenced token) hinv (wrote_of_performed hstep)
      refine ⟨hgood _ hinv', fun result hresult => ?_, fun error _ => ⟨hinv', nofun⟩⟩
      split
      · next hsome =>
        refine ⟨hinv', ?_⟩
        rintro result' ⟨⟩
        exact hpost result hresult (.inl hsome)
      · next hnone =>
        refine Safe.then (safe_rejectIfNewer token (hgood _ hinv')) ?_ fun error s₃ h => ?_
        · rintro ⟨⟩ s₃ rfl
          split
          · next hupsert =>
            refine Safe.attempt_bind (Safe.send ?_)
            rintro s₄ reply' s₅ rfl hstep'
            obtain ⟨hinv'', hpost'⟩ := hwrite _ _ _ _ _ _ (.upserted token hupsert) hinv'
              (wrote_of_performed hstep')
            refine ⟨hgood _ hinv'', ?_⟩
            cases reply' with
            | ok value =>
              refine ⟨hinv'', ?_⟩
              rintro result' ⟨⟩
              exact hpost' value rfl (.inr hupsert.symm)
            | error error =>
              dsimp only [Except.mapError]
              split
              · refine Safe.then (safe_rejectIfNewer token (hgood _ hinv'')) ?_ fun error s₆ h => ?_
                · rintro ⟨⟩ s₆ rfl
                  exact ⟨hinv'', nofun⟩
                · exact ⟨h ▸ hinv'', nofun⟩
              · exact ⟨hinv'', nofun⟩
          · next hupsert =>
            refine ⟨hinv', ?_⟩
            rintro result' ⟨⟩
            have hresult' : result = none := Option.not_isSome_iff_eq_none.mp hnone
            exact hresult' ▸ hpost result hresult (.inr (Bool.eq_false_iff.mpr hupsert).symm)
        · exact ⟨h ▸ hinv', nofun⟩

end Fenced

/-- How far a publication into one collection has come: the items that are done, the ids of their
documents, and whose the documents with their fingerprints are. -/
structure Progress {α : Type} (userId : Value) (start : Store) (free : Prop) (creates : α → Bool)
    (fingerprint : α → Option String) (done : List α) (ids : List Value) (s : Store) : Prop where
  since : Since userId start free s
  owned : ∀ id ∈ ids, Owns userId s id
  enough : (done.filter creates).length ≤ ids.length
  atMost : ids.length ≤ done.length
  claimed : ∀ item ∈ done, creates item = true → ∀ text, fingerprint item = some text → text ≠ "" →
    ∀ slot doc, start.collection.doc slot = some doc →
      doc.get "fingerprint" = some (.str text) → Mine userId s slot

variable {slot : Nat} {update' : Update} {upsert' : Bool} {doc : Document} {text : String}

section Loops

variable {α : Type} {userId : Value} {start s s' : Store} {free : Prop} {creates : α → Bool}
  {fingerprint : α → Option String} {done : List α} {ids : List Value} {item : α}
  {object : Option LeaseObject} {base : Filter} {update : Update} {upsert : Bool}

theorem Progress.assigned {after : Document}
    (h : Progress userId start free creates fingerprint done ids s)
    (hassigned : Assigned userId s s' slot after) (havoids : free → Avoids userId start filter)
    (htarget : Target filter upsert s slot) :
    Progress userId start free creates fingerprint done ids s' where
  since := h.since.assigned hassigned havoids htarget
  owned id hid := (h.owned id hid).assigned hassigned
  enough := h.enough
  atMost := h.atMost
  claimed item hitem hcreates text htext hne slot doc hdoc hvalue :=
    (h.claimed item hitem hcreates text htext hne slot doc hdoc hvalue).assigned hassigned

theorem Progress.skip (item : α)
    (h : Progress userId start free creates fingerprint done ids s)
    (hcreates : creates item = false) (more : List Value) (hmore : ∀ id ∈ more, Owns userId s id)
    (hlength : more.length ≤ 1) :
    Progress userId start free creates fingerprint (done ++ [item]) (ids ++ more) s where
  since := h.since
  owned id hid := (List.mem_append.mp hid).elim (h.owned id) (hmore id)
  enough := by
    have henough := h.enough
    rw [List.filter_append, List.filter_cons_of_neg (by simp [hcreates]), List.filter_nil,
      List.append_nil, List.length_append]
    omega
  atMost := by
    have hatMost := h.atMost
    rw [List.length_append, List.length_append, List.length_singleton]
    omega
  claimed item' hitem' hcreates' := by
    rcases List.mem_append.mp hitem' with hdone | hlast
    · exact h.claimed item' hdone hcreates'
    · rw [List.mem_singleton.mp hlast, hcreates] at hcreates'
      cases hcreates'

def Claimed (userId : Value) (start : Store) (fingerprint : Option String) (s : Store) : Prop :=
  ∀ text, fingerprint = some text → text ≠ "" → ∀ slot doc, start.collection.doc slot = some doc →
    doc.get "fingerprint" = some (.str text) → Mine userId s slot

theorem Progress.create (h : Progress userId start free creates fingerprint done ids s)
    {id : Value} (hid : Owns userId s id) (hclaimed : Claimed userId start (fingerprint item) s) :
    Progress userId start free creates fingerprint (done ++ [item]) (ids ++ [id]) s where
  since := h.since
  owned id' hid' := by
    rcases List.mem_append.mp hid' with hdone | hlast
    · exact h.owned id' hdone
    · exact List.mem_singleton.mp hlast ▸ hid
  enough := by
    have henough := h.enough
    have hlast := List.length_filter_le creates [item]
    rw [List.filter_append]
    simp only [List.length_append, List.length_singleton] at hlast ⊢
    omega
  atMost := by
    have hatMost := h.atMost
    simp only [List.length_append, List.length_singleton]
    omega
  claimed item' hitem' hcreates' := by
    rcases List.mem_append.mp hitem' with hdone | hlast
    · exact h.claimed item' hdone hcreates'
    · rw [List.mem_singleton.mp hlast]
      exact hclaimed

theorem Progress.begin (h : Since userId start free s) :
    Progress userId start free creates fingerprint [] [] s where
  since := h
  owned _ hid := absurd hid List.not_mem_nil
  enough := Nat.le_refl 0
  atMost := Nat.le_refl 0
  claimed _ hitem := absurd hitem List.not_mem_nil

theorem safe_publishEach {publish : List Value → α → Writing (List Value)} {items : List α}
    (hpublish : ∀ done ids item s, item ∈ items →
      Progress userId start free creates fingerprint done ids s →
      SafeStore (Since userId start free) (fun outcome s' => ∀ ids', outcome = .ok ids' →
        Progress userId start free creates fingerprint (done ++ [item]) ids' s')
        (publish ids item).run s)
    (h : Progress userId start free creates fingerprint done ids s) :
    SafeStore (Since userId start free) (fun outcome s' => ∀ ids', outcome = .ok ids' →
      Progress userId start free creates fingerprint (done ++ items) ids' s')
      (publishEach publish ids items).run s := by
  induction items generalizing done ids s with
  | nil =>
    rintro ids' ⟨⟩
    rwa [List.append_nil]
  | cons item items ih =>
    refine Safe.then (hpublish done ids item s List.mem_cons_self h) ?_ fun error s' _ => nofun
    intro ids' s' hprogress
    rw [List.append_cons]
    exact ih (fun done ids item s hitem => hpublish done ids item s (List.mem_cons_of_mem _ hitem))
      (hprogress ids' rfl)

theorem avoids_of_issued (h : Issued base update upsert filter update' upsert')
    (havoids : Avoids userId start base) : Avoids userId start filter := by
  cases h with
  | plain => exact havoids
  | upserted token => exact havoids
  | fenced token =>
    intro slot doc hdoc hforeign
    refine Bool.eq_false_iff.mpr fun haccepts => ?_
    have hbase := accepts_fencedFilter haccepts
    rw [havoids slot doc hdoc hforeign] at hbase
    cases hbase

theorem publishes_of_issued (h : Issued base update upsert filter update' upsert')
    (hupdate : Publishes userId update) :
    Publishes userId update' := by
  cases h with
  | plain => exact hupdate
  | upserted token => exact hupdate.withFence token
  | fenced token => exact hupdate.withFence token

theorem id_of_issued (h : Issued base update upsert filter update' upsert')
    (hid : upsert = true → ∃ id, update.setOnInsert.get "_id" = some id) :
    upsert' = true → ∃ id, update'.setOnInsert.get "_id" = some id := by
  cases h with
  | plain => exact hid
  | upserted token hupsert => exact fun _ => hid hupsert
  | fenced token => exact nofun

theorem safe_publishing (told : Document → Store → Prop)
    (h : Progress userId start free creates fingerprint done ids s)
    (hupdate : Publishes userId update)
    (hid : upsert = true → ∃ id, update.setOnInsert.get "_id" = some id)
    (havoids : free → Avoids userId start base)
    (htold : ∀ filter upsert' s s' slot after,
      (∀ doc, filter.accepts doc = true → base.accepts doc = true) →
      (upsert' = true → filter = base) → Since userId start free s →
      Assigned userId s s' slot after → Target filter upsert' s slot → told after s') :
    SafeStore (Since userId start free)
      (fun outcome s' => ∀ result, outcome = .ok result →
        Progress userId start free creates fingerprint done ids s' ∧
          (upsert = true → result.isSome = true) ∧ ∀ doc, result = some doc →
            (∃ id, doc.get "_id" = some id ∧ Owns userId s' id) ∧ told doc s')
      (fencedFindOneAndUpdate object base update upsert true).run s := by
  refine (safe_fenced (fun s h => h.since) ?_ h).mono fun outcome s' hpost result hresult =>
    ⟨hpost.1, hpost.2 result hresult⟩
  intro filter update' upsert' s reply s' hissued hprogress hwrote
  rcases wrote_assigned hprogress.since.indexed (publishes_of_issued hissued hupdate)
    (id_of_issued hissued hid) hwrote with ⟨rfl, hnone⟩ | ⟨slot, after, hassigned, hreply, htarget⟩
  · refine ⟨hprogress, fun result hresult hknown => ?_⟩
    obtain ⟨rfl, hupsert'⟩ := hnone result hresult
    rcases hknown with hsome | hsame
    · cases hsome
    · refine ⟨fun hupsert => ?_, nofun⟩
      rw [← hsame, hupsert'] at hupsert
      cases hupsert
  · refine ⟨hprogress.assigned hassigned
      (fun hfree => avoids_of_issued hissued (havoids hfree)) htarget, fun result hresult _ => ?_⟩
    rcases hreply with rfl | ⟨error, rfl⟩
    · cases hresult
      refine ⟨fun _ => rfl, ?_⟩
      rintro doc ⟨⟩
      obtain ⟨id, hid'⟩ := Option.isSome_iff_exists.mp hassigned.id
      refine ⟨⟨id, hid', slot, after, hassigned.self, hid', hassigned.user⟩,
        htold filter upsert' s s' slot after ?_ ?_ hprogress.since hassigned htarget⟩
      · intro doc' haccepts
        cases hissued with
        | plain => exact haccepts
        | upserted token => exact haccepts
        | fenced token => exact accepts_fencedFilter haccepts
      · intro hupsert'
        cases hissued with
        | plain => rfl
        | upserted token => rfl
        | fenced token => cases hupsert'
    · cases hresult

theorem mine_of_target {other : Nat} {after : Document} (hsince : Since userId start free s)
    (hassigned : Assigned userId s s' slot after)
    (haccepts : ∀ doc, filter.accepts doc = true → doc.get "fingerprint" = some (.str text))
    (hmeets : upsert' = true → ∀ doc, doc.get "fingerprint" = some (.str text) →
      filter.accepts doc = true)
    (htarget : Target filter upsert' s slot) (hdoc : start.collection.doc other = some doc)
    (hvalue : doc.get "fingerprint" = some (.str text)) : Mine userId s' other := by
  rcases hsince.forth other doc hdoc with hthere | hmine
  · rcases htarget with ⟨found, hfound, hfilter⟩ | ⟨hupsert, -, hnone⟩
    · have hsame :=
        slot_eq_of_fingerprint hsince.indexed hfound hthere (haccepts found hfilter) hvalue
      exact hsame ▸ hassigned.mine
    · have hmet := hmeets hupsert doc hvalue
      rw [hnone other doc hthere] at hmet
      cases hmet
  · exact hmine.assigned hassigned

theorem accepts_fingerprint :
    Filter.accepts [.equals "fingerprint" (.str text)] doc = true ↔
      doc.get "fingerprint" = some (.str text) := by
  simp only [Filter.accepts, Clause.equals, List.all_cons, List.all_nil, Bool.and_true,
    decide_eq_true_eq]
  cases doc.get "fingerprint" <;> simp

def Free (userId : Value) (start : Store) (fingerprint : Option String) : Prop :=
  ∃ text, fingerprint = some text ∧ text ≠ "" ∧ ∀ slot doc, start.collection.doc slot = some doc →
    Foreign userId doc → doc.get "fingerprint" ≠ some (.str text)

theorem itemFilter_some (hne : text ≠ "") {id : Value} :
    itemFilter (some text) id = [.equals "fingerprint" (.str text)] := by
  simp [itemFilter, Option.filter, hne]

theorem avoids_itemFilter {value : Option String} {id : Value} (h : Free userId start value) :
    Avoids userId start (itemFilter value id) := by
  obtain ⟨text, rfl, hne, hfree⟩ := h
  intro slot doc hdoc hforeign
  rw [itemFilter_some hne]
  refine Bool.eq_false_iff.mpr fun haccepts => ?_
  exact hfree slot doc hdoc hforeign (accepts_fingerprint.mp haccepts)

theorem safe_create {run : ExtractionRun} (hdoc : ItemDocument run doc) {id : Value}
    (hcreates : free → Free run.userId start (fingerprint item))
    (h : Progress run.userId start free creates fingerprint done ids s) :
    SafeStore (Since run.userId start free) (fun outcome s' => ∀ ids', outcome = .ok ids' →
        Progress run.userId start free creates fingerprint (done ++ [item]) ids' s')
      (do
        let result ← fencedFindOneAndUpdate object (itemFilter (fingerprint item) id)
          (itemUpdate run id doc) true true
        return appendId ids result : Writing (List Value)).run s := by
  refine Safe.then (safe_publishing (fun _ s' =>
    Claimed run.userId start (fingerprint item) s') h (hdoc.itemUpdate id) (fun _ => ⟨id, rfl⟩)
    (fun hfree => avoids_itemFilter (hcreates hfree)) ?_) ?_ fun error s' _ => nofun
  · intro filter upsert' s s' slot after hbase hsame hsince hassigned htarget text htext hne other
      doc hdoc hvalue
    rw [htext, itemFilter_some hne] at hbase hsame
    refine mine_of_target hsince hassigned
      (fun doc haccepts => accepts_fingerprint.mp (hbase doc haccepts)) ?_ htarget hdoc hvalue
    intro hupsert doc hvalue
    rw [hsame hupsert]
    exact accepts_fingerprint.mpr hvalue
  · intro result s' hresult
    obtain ⟨hprogress, hsome, htold⟩ := hresult result rfl
    obtain ⟨doc, rfl⟩ := Option.isSome_iff_exists.mp (hsome rfl)
    obtain ⟨⟨id, hid, howns⟩, hclaimed⟩ := htold doc rfl
    rintro ids' ⟨⟩
    rw [appendId, hid]
    exact hprogress.create howns hclaimed

theorem safe_update {run : ExtractionRun} (hupdate : Publishes run.userId update)
    (havoids : Avoids run.userId start filter) (hcreates : creates item = false)
    (h : Progress run.userId start free creates fingerprint done ids s) :
    SafeStore (Since run.userId start free) (fun outcome s' => ∀ ids', outcome = .ok ids' →
        Progress run.userId start free creates fingerprint (done ++ [item]) ids' s')
      (do
        let result ← fencedFindOneAndUpdate object filter update false true
        return appendId ids result : Writing (List Value)).run s := by
  refine Safe.then (safe_publishing (fun _ _ => True) h hupdate nofun (fun _ => havoids)
    fun _ _ _ _ _ _ _ _ _ _ _ => trivial) ?_ fun error s' _ => nofun
  intro result s' hresult
  obtain ⟨hprogress, -, htold⟩ := hresult result rfl
  rintro ids' ⟨⟩
  cases result with
  | none =>
    have hskipped := hprogress.skip item hcreates [] nofun (Nat.zero_le 1)
    rwa [List.append_nil] at hskipped
  | some doc =>
    obtain ⟨⟨id, hid, howns⟩, -⟩ := htold doc rfl
    rw [appendId, hid]
    exact hprogress.skip item hcreates [id] (fun id' hid' => List.mem_singleton.mp hid' ▸ howns)
      (Nat.le_refl 1)

theorem avoids_existingFilter {host : PublishHost} {run : ExtractionRun} {existing : String} :
    Avoids run.userId start (existingFilter host run existing) := by
  rintro slot doc - ⟨value, hvalue, hne⟩
  refine Bool.eq_false_iff.mpr fun haccepts => ?_
  simp [existingFilter, Filter.accepts, Clause.equals, hvalue, hne] at haccepts

end Loops

section Parts

variable {start s : Store} {free : Prop} (object : Option LeaseObject) (host : PublishHost)
  {run : ExtractionRun}

theorem safe_publishTasks (hfree : free → ∀ staged ∈ run.stagedTasks, staged.creates = true →
      Free run.userId start staged.task.fingerprint)
    (h : Since run.userId start free s) :
    SafeStore (Since run.userId start free) (fun outcome s' => ∀ ids, outcome = .ok ids →
      Progress run.userId start free StagedTask.creates (fun staged => staged.task.fingerprint)
        run.stagedTasks ids s') (publishTasks object host run).run s := by
  have hstart : Progress run.userId start free StagedTask.creates
      (fun staged : StagedTask => staged.task.fingerprint) [] [] s := .begin h
  refine safe_publishEach ?_ hstart
  intro done ids staged s hstaged hprogress
  have hdoc := taskDocument_item host run staged
  unfold publishTask
  split
  · next hnone =>
    rintro ids' ⟨⟩
    have hskipped := hprogress.skip staged (by simp [StagedTask.creates, hnone]) [] nofun
      (Nat.zero_le 1)
    rwa [List.append_nil] at hskipped
  · next hsome =>
    dsimp only
    split
    · next existing hexisting =>
      exact safe_update hdoc.existing avoids_existingFilter
        (by simp [StagedTask.creates, hexisting]) hprogress
    · next hexisting =>
      exact safe_create hdoc (fun h => hfree h staged hstaged
        (by simp [StagedTask.creates, hexisting, hsome])) hprogress

theorem safe_publishNotes (hfree : free → ∀ staged ∈ run.stagedNotes,
      Free run.userId start staged.note.fingerprint)
    (h : Since run.userId start free s) :
    SafeStore (Since run.userId start free) (fun outcome s' => ∀ ids, outcome = .ok ids →
      Progress run.userId start free (fun _ => true) (fun staged => staged.note.fingerprint)
        run.stagedNotes ids s') (publishNotes object host run).run s := by
  have hstart : Progress run.userId start free (fun _ => true)
      (fun staged : StagedNote => staged.note.fingerprint) [] [] s := .begin h
  refine safe_publishEach ?_ hstart
  intro done ids staged s hstaged hprogress
  exact safe_create (noteDocument_item host run staged) (fun h => hfree h staged hstaged)
    hprogress

end Parts

variable {kind : Kind}

theorem safe_labelled {α : Type} {inv : Store → Prop} {invAll : Database → Prop}
    {post : α → Store → Prop} {prog : Program (Remote Mongo.Error Mongo.Command) α}
    {start s : Database}
    (hinv : ∀ s', (∀ other, other ≠ kind → s'.store other = start.store other) →
      inv (s'.store kind) → invAll s')
    (hsame : ∀ other, other ≠ kind → s.store other = start.store other)
    (h : SafeStore inv post prog (s.store kind)) :
    Safe onDatabase Eq (fun _ _ s' => invAll s') (fun value s' => post value (s'.store kind) ∧
      ∀ other, other ≠ kind → s'.store other = start.store other) (prog.labelled kind) s := by
  induction prog generalizing s with
  | ret value => exact ⟨h, hsame⟩
  | call command next ih =>
    rintro s₁ reply s₂ rfl ⟨hstep, hframe⟩
    obtain ⟨hown, hnext⟩ := h _ reply _ rfl hstep
    have hsame' : ∀ other, other ≠ kind → s₂.store other = start.store other := fun other hother =>
      (hframe other hother).trans (hsame other hother)
    exact ⟨hinv s₂ hsame' hown, ih reply hsame' hnext⟩

section Database

variable {host : PublishHost} {object : Option LeaseObject} {run : ExtractionRun}
  {start s : Database}

def SinceAll (run : ExtractionRun) (start s : Database) : Prop :=
  ∀ kind, Since run.userId (start.store kind) (Untaken run start) (s.store kind)

structure Finished (run : ExtractionRun) (start s : Database) (ids : List Value × List Value) :
    Prop where
  tasks : Progress run.userId start.tasks (Untaken run start) StagedTask.creates
    (fun staged => staged.task.fingerprint) run.stagedTasks ids.1 s.tasks
  notes : Progress run.userId start.notes (Untaken run start) (fun _ => true)
    (fun staged => staged.note.fingerprint) run.stagedNotes ids.2 s.notes

theorem free_of_untaken (hfingerprints : run.Fingerprinted) (huntaken : Untaken run start)
    {kind : Kind} {value : Option String} (hvalue : value ∈ run.fingerprints kind) :
    Free run.userId (start.store kind) value := by
  obtain ⟨text, rfl, hne⟩ := hfingerprints kind value hvalue
  exact ⟨text, rfl, hne, fun slot doc hdoc hforeign =>
    huntaken kind slot doc hdoc hforeign text hvalue⟩

theorem task_fingerprint_mem {staged : StagedTask} (hstaged : staged ∈ run.stagedTasks)
    (hcreates : staged.creates = true) : staged.task.fingerprint ∈ run.fingerprints .task :=
  List.mem_map_of_mem (List.mem_filter.mpr ⟨hstaged, hcreates⟩)

theorem note_fingerprint_mem {staged : StagedNote} (hstaged : staged ∈ run.stagedNotes) :
    staged.note.fingerprint ∈ run.fingerprints .note := List.mem_map_of_mem hstaged

theorem safe_publishOutputs (hfingerprints : run.Fingerprinted) (h : SinceAll run start s)
    (hs : s = start) :
    Safe onDatabase Eq (fun _ _ s' => SinceAll run start s')
      (fun outcome s' => ∀ ids, outcome = .ok ids → Finished run start s' ids)
      (publishOutputs object host run).run s := by
  subst hs
  have htasks := safe_publishTasks object host
    (fun huntaken staged hstaged hcreates =>
      free_of_untaken hfingerprints huntaken (task_fingerprint_mem hstaged hcreates))
    (h .task)
  refine Safe.then (safe_labelled (fun s' hsame hinv kind => ?_) (fun _ _ => rfl) htasks) ?_
    fun error s' _ => nofun
  · cases kind with
    | task => exact hinv
    | note => exact hsame .note nofun ▸ h .note
  rintro taskIds s₁ ⟨hprogress, hframe⟩
  have hnotesStore : s₁.store .note = s.store .note := hframe .note nofun
  have hnotes := safe_publishNotes object host
    (fun huntaken staged hstaged =>
      free_of_untaken hfingerprints huntaken (note_fingerprint_mem hstaged))
    (hnotesStore ▸ h .note : Since run.userId (s.store .note) (Untaken run s) (s₁.store .note))
  have htasksDone := hprogress taskIds rfl
  refine Safe.then (safe_labelled (fun s' hsame hinv kind => ?_) (fun _ _ => rfl) hnotes) ?_
    fun error s' _ => nofun
  · cases kind with
    | task => exact hsame .task nofun ▸ htasksDone.since
    | note => exact hinv
  rintro noteIds s₂ ⟨hnoteProgress, hframe'⟩
  rintro ids ⟨⟩
  have htasksStore : s₂.tasks = s₁.tasks := hframe' .task nofun
  exact ⟨htasksStore ▸ htasksDone, hnoteProgress noteIds rfl⟩

theorem Finished.created {ids : List Value × List Value} (h : Finished run start s ids) :
    Created run s ids where
  tasks := h.tasks.owned
  notes := h.notes.owned
  taskCount := h.tasks.enough
  noteCount := by
    have henough := h.notes.enough
    rw [List.filter_eq_self.mpr fun _ _ => rfl] at henough
    exact Nat.le_antisymm h.notes.atMost henough

theorem Finished.mine {ids : List Value × List Value} (h : Finished run start s ids)
    (hfingerprints : run.Fingerprinted) (hdoc : (start.store kind).collection.doc slot = some doc)
    (htext : some text ∈ run.fingerprints kind)
    (hvalue : doc.get "fingerprint" = some (.str text)) :
    Mine run.userId (s.store kind) slot := by
  obtain ⟨text', heq, hne⟩ := hfingerprints kind _ htext
  cases heq
  cases kind with
  | task =>
    obtain ⟨staged, hstaged, hfingerprint⟩ := List.mem_map.mp htext
    obtain ⟨hmem, hcreates⟩ := List.mem_filter.mp hstaged
    exact h.tasks.claimed staged hmem hcreates text hfingerprint hne slot doc hdoc hvalue
  | note =>
    obtain ⟨staged, hmem, hfingerprint⟩ := List.mem_map.mp htext
    exact h.notes.claimed staged hmem rfl text hfingerprint hne slot doc hdoc hvalue

theorem Finished.untaken {ids : List Value × List Value} (h : Finished run start s ids)
    (hfingerprints : run.Fingerprinted) (hothers : OthersKept run.userId start s) :
    Untaken run start := by
  intro kind slot doc hdoc hforeign text htext hvalue
  obtain ⟨doc', hdoc', huser⟩ := h.mine hfingerprints hdoc htext hvalue
  rw [hothers kind slot doc hdoc hforeign] at hdoc'
  cases hdoc'
  exact not_foreign_of_user huser hforeign

end Database

/-- Where no document of another user has one of its fingerprints, a publication leaves those
documents alone wherever it stops. Where it returns, it is isolated if and only if that is so. -/
theorem publish_isolated {host : PublishHost} {object : Option LeaseObject} {run : ExtractionRun}
    {start s : Database} {rest : Program (Labelled Kind (Remote Mongo.Error Mongo.Command))
      (Except WriteError (List Value × List Value))}
    (hindexed : ∀ kind, Indexed (start.store kind)) (hfingerprints : run.Fingerprinted)
    (hreach : Reach onDatabase Eq (publishOutputs object host run).run start rest s) :
    (Untaken run start → OthersKept run.userId start s) ∧
      ∀ ids, rest = .ret (.ok ids) → (Isolated run start s ids ↔ Untaken run start) := by
  have hsince : SinceAll run start start := fun kind => .refl (hindexed kind)
  have hsafe : Safe onDatabase Eq (fun _ _ s' => SinceAll run start s')
      (fun outcome s' => ∀ ids, outcome = .ok ids → Finished run start s' ids)
      (publishOutputs object host run).run start := safe_publishOutputs hfingerprints hsince rfl
  have htrans : ∀ s₁ s₂ s₃ : Database, s₁ = s₂ → s₂ = s₃ → s₁ = s₃ := fun _ _ _ => Eq.trans
  have hrefl : ∀ s : Database, s = s := fun _ => rfl
  have hstay : ∀ s s', SinceAll run start s → s = s' → SinceAll run start s' :=
    fun _ _ hinv heq => heq ▸ hinv
  have hkept : SinceAll run start s :=
    Safe.invariant (SinceAll run start) htrans hrefl hstay (fun _ _ _ _ hinv => hinv)
      (hsafe.mono fun _ _ _ => trivial) hsince hreach
  have hothers : Untaken run start → OthersKept run.userId start s := fun huntaken kind =>
    (hkept kind).kept huntaken
  refine ⟨hothers, ?_⟩
  rintro ids rfl
  have hfinished : Finished run start s ids :=
    Safe.returned htrans hrefl (fun _ _ _ hpost heq => heq ▸ hpost) hsafe hreach ids rfl
  exact ⟨fun h => hfinished.untaken hfingerprints h.1, fun h => ⟨hothers h, hfinished.created⟩⟩

def databaseAnswer {β : Type} (command : Labelled Kind (Remote Mongo.Error Mongo.Command) β)
    (s : Database) : β × Database :=
  match command with
  | ⟨.task, command⟩ =>
    let (reply, store) := Mongo.Command.answer collides command s.tasks
    (reply, { s with tasks := store })
  | ⟨.note, command⟩ =>
    let (reply, store) := Mongo.Command.answer collides command s.notes
    (reply, { s with notes := store })

theorem answer_semantics {β : Type} {command : Remote Mongo.Error Mongo.Command β} {s : Store} :
    Remote.semantics (Performed collides) command s (Mongo.Command.answer collides command s).1
      (Mongo.Command.answer collides command s).2 := by
  cases command with
  | send command => exact ⟨0, .answered⟩

theorem onDatabase_answer {β : Type}
    {command : Labelled Kind (Remote Mongo.Error Mongo.Command) β} {s : Database} :
    onDatabase command s (databaseAnswer command s).1 (databaseAnswer command s).2 := by
  obtain ⟨kind, command⟩ := command
  cases kind with
  | task =>
    refine ⟨answer_semantics, fun kind hkind => ?_⟩
    cases kind with
    | task => exact absurd rfl hkind
    | note => rfl
  | note =>
    refine ⟨answer_semantics, fun kind hkind => ?_⟩
    cases kind with
    | task => rfl
    | note => exact absurd rfl hkind

def sampleHost : PublishHost where
  sha256 := id
  objectId := .other
  toMongoId := .str

def sampleNote : ExtractedNote where
  title := "Weekly review"
  body := "Nothing is open."
  confidence := 1
  evidence := [⟨1, 2, "nothing is open"⟩]

def sampleRun (userId conversationId spaceId : String) : ExtractionRun where
  id := conversationId
  conversationId := .str conversationId
  userId := .str userId
  spaceId := if spaceId = "" then .null else .str spaceId
  stagedNotes :=
    [{ note := { sampleNote with
        fingerprint := some (noteFingerprint sampleHost spaceId sampleNote) }
       sourceConversationId := conversationId }]

def emptyDatabase : Database := ⟨⟨⟨[]⟩, []⟩, ⟨⟨[]⟩, []⟩⟩

def publishedIn (run : ExtractionRun) (s : Database) :
    Except WriteError (List Value × List Value) × Database :=
  (publishOutputs none sampleHost run).run.eval databaseAnswer s

theorem publishedIn_reach (run : ExtractionRun) (s : Database) :
    Reach onDatabase Eq (publishOutputs none sampleHost run).run s
      (.ret (publishedIn run s).1) (publishedIn run s).2 :=
  reach_eval (fun command s => onDatabase_answer) _ s

theorem sampleRun_fingerprinted {userId conversationId spaceId : String}
    (h : noteFingerprint sampleHost spaceId sampleNote ≠ "") :
    (sampleRun userId conversationId spaceId).Fingerprinted := by
  intro kind value hvalue
  cases kind with
  | task => exact absurd hvalue List.not_mem_nil
  | note =>
    obtain rfl := List.mem_singleton.mp hvalue
    exact ⟨_, rfl, h⟩

def sampleDocument : Document :=
  [("_id", .str "n1"), ("userId", .str "u1"), ("fingerprint", .str "s1|weekly review")]

def sampleDatabase : Database := ⟨⟨⟨[]⟩, []⟩, ⟨⟨[some sampleDocument]⟩, []⟩⟩

theorem doc_of_sample (h : (sampleDatabase.store kind).collection.doc slot = some doc) :
    slot = 0 ∧ doc = sampleDocument := by
  cases kind with
  | task => cases h
  | note =>
    cases slot with
    | zero =>
      cases h
      exact ⟨rfl, rfl⟩
    | succ slot => cases h

theorem sampleDatabase_indexed (kind : Kind) : Indexed (sampleDatabase.store kind) where
  id _ _ hdoc := (doc_of_sample hdoc).2 ▸ rfl
  unique _ _ _ _ hdoc hdoc' hne :=
    absurd ((doc_of_sample hdoc).1.trans (doc_of_sample hdoc').1.symm) hne

theorem publish_isolated_sample :
    ∃ ids, (publishedIn (sampleRun "u2" "c2" "s2") sampleDatabase).1 = .ok ids ∧
      Isolated (sampleRun "u2" "c2" "s2") sampleDatabase
        (publishedIn (sampleRun "u2" "c2" "s2") sampleDatabase).2 ids := by
  have hids : (publishedIn (sampleRun "u2" "c2" "s2") sampleDatabase).1 =
      .ok ([], [.other
        "c2|note|0|s2|weekly review|nothing is open.|1:2|Weekly review|Nothing is open."]) := by
    decide +kernel
  refine ⟨_, hids, ((publish_isolated sampleDatabase_indexed
    (sampleRun_fingerprinted (by decide +kernel))
    (publishedIn_reach (sampleRun "u2" "c2" "s2") sampleDatabase)).2 _
      (congrArg Program.ret hids)).mpr ?_⟩
  intro kind slot doc hdoc _ text htext
  rw [(doc_of_sample hdoc).2]
  cases kind with
  | task => exact absurd htext List.not_mem_nil
  | note =>
    cases List.mem_singleton.mp htext
    decide +kernel

/-- Two meetings without a space have the same note. Publishing the one of the second user takes the
document of the first. -/
theorem publish_takes_over :
    (publishedIn (sampleRun "u1" "c1" "") emptyDatabase).2.notes.collection.slots.map
        (Option.bind · (Document.get · "userId")) = [some (.str "u1")] ∧
      (publishedIn (sampleRun "u2" "c2" "")
          (publishedIn (sampleRun "u1" "c1" "") emptyDatabase).2).2.notes.collection.slots.map
        (Option.bind · (Document.get · "userId")) = [some (.str "u2")] ∧
      ¬ ∀ (first second : ExtractionRun) (start : Database), first.userId ≠ second.userId →
        first.conversationId ≠ second.conversationId →
        OthersKept second.userId (publishedIn first start).2
          (publishedIn second (publishedIn first start).2).2 := by
  have hfirst : ((publishedIn (sampleRun "u1" "c1" "") emptyDatabase).2.notes.collection.doc
      0).bind (Document.get · "userId") = some (.str "u1") := by decide +kernel
  have hsecond : ((publishedIn (sampleRun "u2" "c2" "")
      (publishedIn (sampleRun "u1" "c1" "") emptyDatabase).2).2.notes.collection.doc 0).bind
        (Document.get · "userId") = some (.str "u2") := by decide +kernel
  refine ⟨by decide +kernel, by decide +kernel, fun h => ?_⟩
  have hkept := h (sampleRun "u1" "c1" "") (sampleRun "u2" "c2" "") emptyDatabase (by decide)
    (by decide)
  obtain ⟨doc, hdoc, huser⟩ := Option.bind_eq_some_iff.mp hfirst
  have hsame := hkept .note 0 doc hdoc ⟨_, huser, by decide⟩
  rw [Database.store] at hsame
  rw [hsame, Option.bind_some, huser] at hsecond
  exact absurd hsecond (by decide)

end AiBuddy.Conversation
