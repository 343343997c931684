import AiBuddy.Conversation.Publishing
import AiBuddy.Queue.MongoFence.Proofs.Writes

/-!
# What publishing does to a collection

One case lemma says what `find_one_and_update` may come to. From it, whatever a publication writes
is the user's, and the unique indexes go on holding.
-/

namespace AiBuddy.Conversation

open Mongo Program
open Queue.JobLease Queue.MongoFence

@[simp] theorem get_without (paths : List String) (doc : Document) (path : String) :
    (without paths doc).get path = if path ∈ paths then none else doc.get path := by
  induction doc with
  | nil => exact (ite_self _).symm
  | cons field rest ih =>
    obtain ⟨name, value⟩ := field
    rw [without] at ih
    by_cases hname : name ∈ paths
    · have hdrop : without paths ((name, value) :: rest) =
          rest.filter fun field => field.1 ∉ paths := by
        rw [without, List.filter_cons_of_neg (by simpa using hname)]
      rw [hdrop, ih, Document.get_cons]
      split
      · rfl
      · next hpath => rw [if_neg fun (hsame : path = name) => hpath (hsame ▸ hname)]
    · have hkeep : without paths ((name, value) :: rest) =
          (name, value) :: rest.filter fun field => field.1 ∉ paths := by
        rw [without, List.filter_cons_of_pos (by simpa using hname)]
      rw [hkeep, Document.get_cons, Document.get_cons, ih]
      by_cases hsame : path = name
      · rw [if_pos hsame, if_pos hsame, if_neg (hsame ▸ hname)]
      · rw [if_neg hsame, if_neg hsame]

theorem get_setDefault {path name : String} {value : Value} {doc : Document} (h : name ≠ path) :
    (setDefault path value doc).get name = doc.get name := by
  unfold setDefault
  split
  · rfl
  · rw [Document.get_put, if_neg h]

/-- The fields that `ExtractionRun.document` assigns. -/
def assigned : List String :=
  ["conversationId", "sourceConversationId", "userId", "spaceId", "updatedAt", "createdAt",
    "origin", "source", "deletedAt"]

variable {run : ExtractionRun}

theorem get_document {source : Value} {dump : Document} {path : String} (h : path ∉ assigned) :
    (run.document source dump).get path = dump.get path := by
  simp only [assigned, List.mem_cons, List.not_mem_nil, or_false, not_or] at h
  obtain ⟨h₁, h₂, h₃, h₄, h₅, h₆, h₇, h₈, h₉⟩ := h
  rw [ExtractionRun.document, Document.get_put, if_neg h₉, get_setDefault h₈,
    get_setDefault h₇, get_setDefault h₆, Document.get_put, if_neg h₅, Document.get_put,
    if_neg h₄, Document.get_put, if_neg h₃, Document.get_put, if_neg h₂, Document.get_put,
    if_neg h₁]

theorem get_document_userId {run : ExtractionRun} {source : Value} {dump : Document} :
    (run.document source dump).get "userId" = some run.userId := by
  rw [ExtractionRun.document, Document.get_put, if_neg (by decide), get_setDefault (by decide),
    get_setDefault (by decide), get_setDefault (by decide), Document.get_put,
    if_neg (by decide), Document.get_put, if_neg (by decide), Document.get_put, if_pos rfl]

structure ItemDocument (run : ExtractionRun) (doc : Document) : Prop where
  user : doc.get "userId" = some run.userId
  id : doc.get "_id" = none

theorem taskDocument_item (host : PublishHost) (run : ExtractionRun) (staged : StagedTask) :
    ItemDocument run (taskDocument host run staged) := by
  refine ⟨?_, ?_⟩
  · rw [taskDocument, Document.get_put, if_neg (by decide), get_document_userId]
  · rw [taskDocument, Document.get_put, if_neg (by decide), get_document (by decide)]
    simp [StagedTask.dump, staged.noId]

theorem noteDocument_item (host : PublishHost) (run : ExtractionRun) (staged : StagedNote) :
    ItemDocument run (noteDocument host run staged) := by
  refine ⟨get_document_userId, ?_⟩
  rw [noteDocument, get_document (by decide)]
  simp [StagedNote.dump, staged.noId]

structure Publishes (userId : Value) (update : Update) : Prop where
  user : update.set.get "userId" = some userId
  id : update.set.get "_id" = none
  modify : update.modify = []

theorem Publishes.withFence {userId : Value} {update : Update} (h : Publishes userId update)
    (token : Int) : Publishes userId (withFence update token) := by
  refine ⟨?_, ?_, h.modify⟩
  · rw [withFence_get (by decide), h.user]
  · rw [withFence_get (by decide), h.id]

variable {doc : Document}

theorem ItemDocument.itemUpdate (h : ItemDocument run doc) (id : Value) :
    Publishes run.userId (itemUpdate run id doc) := by
  refine ⟨?_, ?_, rfl⟩
  · simp [Conversation.itemUpdate, h.user]
  · simp [Conversation.itemUpdate]

theorem ItemDocument.existing (h : ItemDocument run doc) :
    Publishes run.userId { set := without ["createdAt"] doc } := by
  refine ⟨?_, ?_, rfl⟩
  · simp [h.user]
  · simp [h.id]

namespace Publishes

variable {userId : Value} {update : Update}

theorem apply_user (h : Publishes userId update) (inserting : Bool) (doc : Document) :
    (update.apply inserting doc).get "userId" = some userId := Update.get_apply h.user inserting doc

theorem apply_id (h : Publishes userId update) (doc : Document) :
    (update.apply false doc).get "_id" = doc.get "_id" := by
  simp [Update.apply, Update.get_assign, h.id, h.modify]

theorem insert_id (h : Publishes userId update) {id : Value}
    (hid : update.setOnInsert.get "_id" = some id) {doc : Document} :
    (update.apply true doc).get "_id" = some id := by
  simp [Update.apply, Update.get_assign, h.id, hid]

end Publishes

theorem select_eq_none {c : Collection} {choice : Nat} {filter : Filter}
    (h : c.select choice filter = none) {slot : Nat} (hdoc : c.doc slot = some doc) :
    filter.accepts doc = false := by
  by_contra haccepts
  have hmem := Collection.mem_matching.mpr ⟨hdoc, Bool.eq_true_of_not_eq_false haccepts⟩
  have hlength := List.getElem?_eq_none_iff.mp h
  exact absurd (Nat.mod_lt choice (List.length_pos_of_mem hmem)) (Nat.not_lt.mpr hlength)

theorem write_cases (choice : Nat) (filter : Filter) (update : Update) (upsert : Bool) (s : Store) :
    (∃ error, s.write collides choice filter update upsert = (.error error, s)) ∨
      (upsert = false ∧ s.write collides choice filter update upsert = (.ok none, s)) ∨
      (∃ slot doc, s.collection.doc slot = some doc ∧ filter.accepts doc = true ∧
        s.collection.clashes collides slot (update.apply false doc) = false ∧
        s.write collides choice filter update upsert =
          (.ok (some (some doc, update.apply false doc)),
            ⟨s.collection.replace slot (update.apply false doc),
              ⟨slot, some doc, update⟩ :: s.landed⟩)) ∨
      (upsert = true ∧
        (∀ slot doc, s.collection.doc slot = some doc → filter.accepts doc = false) ∧
        ∃ fields, s.collection.clashes collides s.collection.slots.length
            (update.apply true fields) = false ∧
          s.write collides choice filter update upsert =
            (.ok (some (none, update.apply true fields)),
              ⟨s.collection.insert (update.apply true fields),
                ⟨s.collection.slots.length, none, update⟩ :: s.landed⟩)) := by
  unfold Store.write
  split
  · exact .inl ⟨_, rfl⟩
  · split
    · next slot doc hselect =>
      obtain ⟨hdoc, haccepts⟩ := Collection.select_eq_some hselect
      dsimp only
      split
      · exact .inl ⟨_, rfl⟩
      · next hclash =>
        exact .inr (.inr (.inl ⟨slot, doc, hdoc, haccepts, Bool.eq_false_iff.mpr hclash, rfl⟩))
    · next hselect =>
      split
      · next hupsert =>
        dsimp only
        split
        · exact .inl ⟨_, rfl⟩
        · next hclash =>
          exact .inr (.inr (.inr ⟨hupsert, fun slot doc => select_eq_none hselect,
            _, Bool.eq_false_iff.mpr hclash, rfl⟩))
      · next hupsert => exact .inr (.inl ⟨Bool.eq_false_iff.mpr hupsert, rfl⟩)

def Told (reply : Except Mongo.Error (Option Document)) (after : Document) : Prop :=
  reply = .ok (some after) ∨ ∃ error, reply = .error error

/-- What `find_one_and_update` may come to, where it returns the document after the write. -/
inductive Wrote (filter : Filter) (update : Update) (upsert : Bool) (s : Store) :
    Except Mongo.Error (Option Document) → Store → Prop where
  | failed {error : Mongo.Error} : Wrote filter update upsert s (.error error) s
  | unmatched : upsert = false → Wrote filter update upsert s (.ok none) s
  | updated {slot : Nat} {doc : Document} {reply : Except Mongo.Error (Option Document)} :
      s.collection.doc slot = some doc → filter.accepts doc = true →
      s.collection.clashes collides slot (update.apply false doc) = false →
      Told reply (update.apply false doc) →
      Wrote filter update upsert s reply
        ⟨s.collection.replace slot (update.apply false doc), ⟨slot, some doc, update⟩ :: s.landed⟩
  | inserted {fields : Document} {reply : Except Mongo.Error (Option Document)} :
      upsert = true → (∀ slot doc, s.collection.doc slot = some doc → filter.accepts doc = false) →
      s.collection.clashes collides s.collection.slots.length (update.apply true fields) = false →
      Told reply (update.apply true fields) →
      Wrote filter update upsert s reply
        ⟨s.collection.insert (update.apply true fields),
          ⟨s.collection.slots.length, none, update⟩ :: s.landed⟩

theorem wrote_of_performed {filter : Filter} {update : Update} {upsert : Bool} {s s' : Store}
    {reply : Except Mongo.Error (Option Document)}
    (h : Performed collides (.findOneAndUpdate filter update upsert true) s reply s') :
    Wrote filter update upsert s reply s' := by
  obtain ⟨choice, h⟩ := h
  have hcases := write_cases choice filter update upsert s
  have hrun : (Mongo.Command.findOneAndUpdate filter update upsert true).run collides choice s =
      ((s.write collides choice filter update upsert).1.map (returned true),
        (s.write collides choice filter update upsert).2) := rfl
  generalize hwrite : s.write collides choice filter update upsert = written at hcases hrun
  cases h with
  | unsent => exact .failed
  | answered =>
    rw [hrun]
    rcases hcases with ⟨error, rfl⟩ | ⟨hupsert, rfl⟩ | ⟨slot, doc, hdoc, haccepts, hclash, rfl⟩ |
      ⟨hupsert, hnone, fields, hclash, rfl⟩
    · exact .failed
    · exact .unmatched hupsert
    · exact .updated hdoc haccepts hclash (.inl rfl)
    · exact .inserted hupsert hnone hclash (.inl rfl)
  | unheard =>
    rw [hrun]
    rcases hcases with ⟨error, rfl⟩ | ⟨hupsert, rfl⟩ | ⟨slot, doc, hdoc, haccepts, hclash, rfl⟩ |
      ⟨hupsert, hnone, fields, hclash, rfl⟩
    · exact .failed
    · exact .failed
    · exact .updated hdoc haccepts hclash (.inr ⟨_, rfl⟩)
    · exact .inserted hupsert hnone hclash (.inr ⟨_, rfl⟩)

theorem share_comm (path : String) (doc doc' : Document) :
    share path doc doc' = share path doc' doc := by
  unfold share
  cases doc.get path <;> cases doc'.get path <;> simp [eq_comm]

theorem collides_comm (doc doc' : Document) : collides doc doc' = collides doc' doc := by
  rw [collides, collides, share_comm "_id", share_comm "fingerprint"]

theorem not_collides_of_clashes {c : Collection} {slot other : Nat} {after : Document}
    (h : c.clashes collides slot after = false) (hdoc : c.doc other = some doc)
    (hother : other ≠ slot) : collides after doc = false := by
  have hall := List.any_eq_false.mp h other (List.mem_range.mpr (Collection.lt_of_doc hdoc))
  simpa [hdoc, hother] using hall

def Mine (userId : Value) (s : Store) (slot : Nat) : Prop :=
  ∃ doc, s.collection.doc slot = some doc ∧ doc.get "userId" = some userId

/-- What a collection has become since a publication began: only the documents of the user are new,
and where no other document is `free`, those of others are as they were. -/
structure Since (userId : Value) (start : Store) (free : Prop) (s : Store) : Prop where
  indexed : Indexed s
  forth : ∀ slot doc, start.collection.doc slot = some doc →
    s.collection.doc slot = some doc ∨ Mine userId s slot
  back : ∀ slot doc, s.collection.doc slot = some doc →
    start.collection.doc slot = some doc ∨ doc.get "userId" = some userId
  kept : free → ∀ slot doc, start.collection.doc slot = some doc → Foreign userId doc →
    s.collection.doc slot = some doc

theorem Since.refl {userId : Value} {start : Store} {free : Prop} (h : Indexed start) :
    Since userId start free start where
  indexed := h
  forth _ _ hdoc := .inl hdoc
  back _ _ hdoc := .inl hdoc
  kept _ _ _ hdoc _ := hdoc

def Avoids (userId : Value) (start : Store) (filter : Filter) : Prop :=
  ∀ slot doc, start.collection.doc slot = some doc → Foreign userId doc → filter.accepts doc = false

structure Assigned (userId : Value) (s s' : Store) (slot : Nat) (after : Document) : Prop where
  docs : ∀ other,
    s'.collection.doc other = if other = slot then some after else s.collection.doc other
  user : after.get "userId" = some userId
  id : (after.get "_id").isSome
  sameId : ∀ doc, s.collection.doc slot = some doc → after.get "_id" = doc.get "_id"
  apart : ∀ other doc, s.collection.doc other = some doc → other ≠ slot → collides after doc = false

def Target (filter : Filter) (upsert : Bool) (s : Store) (slot : Nat) : Prop :=
  (∃ doc, s.collection.doc slot = some doc ∧ filter.accepts doc = true) ∨
    upsert = true ∧ s.collection.doc slot = none ∧
      ∀ other doc, s.collection.doc other = some doc → filter.accepts doc = false

section Writes

variable {userId : Value} {filter : Filter} {update : Update} {upsert : Bool} {s s' start : Store}
  {reply : Except Mongo.Error (Option Document)} {slot : Nat} {after : Document} {free : Prop}

theorem wrote_assigned (hindexed : Indexed s) (hupdate : Publishes userId update)
    (hid : upsert = true → ∃ id, update.setOnInsert.get "_id" = some id)
    (h : Wrote filter update upsert s reply s') :
    (s' = s ∧ ∀ result, reply = .ok result → result = none ∧ upsert = false) ∨
      ∃ slot after, Assigned userId s s' slot after ∧ Told reply after ∧
        Target filter upsert s slot := by
  cases h with
  | failed => exact .inl ⟨rfl, nofun⟩
  | unmatched hupsert =>
    refine .inl ⟨rfl, ?_⟩
    rintro result ⟨⟩
    exact ⟨rfl, hupsert⟩
  | @updated slot doc _ hdoc haccepts hclash htold =>
    refine .inr ⟨slot, _, ⟨?_, hupdate.apply_user false doc, ?_, ?_, ?_⟩, htold,
      .inl ⟨doc, hdoc, haccepts⟩⟩
    · exact Collection.doc_replace (Collection.lt_of_doc hdoc) _
    · rw [hupdate.apply_id]
      exact hindexed.id slot doc hdoc
    · intro doc' hdoc'
      rw [hdoc] at hdoc'
      cases hdoc'
      exact hupdate.apply_id doc
    · exact fun other doc' hdoc' hother => not_collides_of_clashes hclash hdoc' hother
  | @inserted fields _ hupsert hnone hclash htold =>
    obtain ⟨id, hid⟩ := hid hupsert
    have hfree : s.collection.doc s.collection.slots.length = none := by
      by_contra hsome
      obtain ⟨doc, hdoc⟩ := Option.ne_none_iff_exists'.mp hsome
      exact Nat.lt_irrefl _ (Collection.lt_of_doc hdoc)
    refine .inr ⟨_, _, ⟨?_, hupdate.apply_user true fields, ?_, ?_, ?_⟩, htold,
      .inr ⟨hupsert, hfree, hnone⟩⟩
    · exact Collection.doc_insert s.collection _
    · rw [hupdate.insert_id hid]
      rfl
    · intro doc hdoc
      rw [hfree] at hdoc
      cases hdoc
    · exact fun other doc' hdoc' hother => not_collides_of_clashes hclash hdoc' hother

theorem Assigned.self (h : Assigned userId s s' slot after) : s'.collection.doc slot = some after :=
  (h.docs slot).trans (if_pos rfl)

theorem Assigned.other {other : Nat} (h : Assigned userId s s' slot after) (hother : other ≠ slot) :
    s'.collection.doc other = s.collection.doc other := (h.docs other).trans (if_neg hother)

theorem Assigned.mine (h : Assigned userId s s' slot after) : Mine userId s' slot :=
  ⟨after, h.self, h.user⟩

theorem Mine.assigned {other : Nat} (hmine : Mine userId s other)
    (h : Assigned userId s s' slot after) : Mine userId s' other := by
  by_cases hsame : other = slot
  · exact hsame ▸ h.mine
  · obtain ⟨doc, hdoc, huser⟩ := hmine
    exact ⟨doc, (h.other hsame).trans hdoc, huser⟩

theorem Owns.assigned {id : Value} (howns : Owns userId s id)
    (h : Assigned userId s s' slot after) : Owns userId s' id := by
  obtain ⟨other, doc, hdoc, hid, huser⟩ := howns
  by_cases hsame : other = slot
  · subst hsame
    exact ⟨other, after, h.self, (h.sameId doc hdoc).trans hid, h.user⟩
  · exact ⟨other, doc, (h.other hsame).trans hdoc, hid, huser⟩

theorem Indexed.assigned (hindexed : Indexed s) (h : Assigned userId s s' slot after) :
    Indexed s' := by
  refine ⟨fun other doc hdoc => ?_, fun first second doc doc' hdoc hdoc' hne => ?_⟩
  · by_cases hsame : other = slot
    · rw [hsame, h.self] at hdoc
      cases hdoc
      exact h.id
    · exact hindexed.id other doc ((h.other hsame).symm.trans hdoc)
  · by_cases hfirst : first = slot
    · subst hfirst
      rw [h.self] at hdoc
      cases hdoc
      exact h.apart second doc' ((h.other hne.symm).symm.trans hdoc') hne.symm
    · by_cases hsecond : second = slot
      · subst hsecond
        rw [h.self] at hdoc'
        cases hdoc'
        rw [collides_comm]
        exact h.apart first doc ((h.other hfirst).symm.trans hdoc) hfirst
      · exact hindexed.unique first second doc doc' ((h.other hfirst).symm.trans hdoc)
          ((h.other hsecond).symm.trans hdoc') hne

theorem not_foreign_of_user (h : doc.get "userId" = some userId) : ¬ Foreign userId doc := by
  rintro ⟨value, hvalue, hne⟩
  rw [h] at hvalue
  cases hvalue
  exact hne rfl

theorem Since.assigned (hsince : Since userId start free s)
    (h : Assigned userId s s' slot after) (havoids : free → Avoids userId start filter)
    (htarget : Target filter upsert s slot) : Since userId start free s' := by
  refine ⟨hsince.indexed.assigned h, fun other doc hdoc => ?_, fun other doc hdoc => ?_,
    fun hfree other doc hdoc hforeign => ?_⟩
  · by_cases hsame : other = slot
    · exact .inr (hsame ▸ h.mine)
    · rcases hsince.forth other doc hdoc with hthere | hmine
      · exact .inl ((h.other hsame).trans hthere)
      · exact .inr (hmine.assigned h)
  · by_cases hsame : other = slot
    · rw [hsame, h.self] at hdoc
      cases hdoc
      exact .inr h.user
    · exact hsince.back other doc ((h.other hsame).symm.trans hdoc)
  · have hthere := hsince.kept hfree other doc hdoc hforeign
    by_cases hsame : other = slot
    · exfalso
      subst hsame
      rcases htarget with ⟨doc', hdoc', haccepts⟩ | ⟨-, hnone, -⟩
      · rw [hthere] at hdoc'
        cases hdoc'
        rw [havoids hfree other doc hdoc hforeign] at haccepts
        cases haccepts
      · rw [hthere] at hnone
        cases hnone
    · exact (h.other hsame).trans hthere

theorem slot_eq_of_fingerprint {value : Value} {other : Nat} {doc' : Document}
    (hindexed : Indexed s) (hdoc : s.collection.doc slot = some doc)
    (hdoc' : s.collection.doc other = some doc') (hvalue : doc.get "fingerprint" = some value)
    (hvalue' : doc'.get "fingerprint" = some value) : slot = other := by
  by_contra hne
  have hcollides : collides doc doc' = true := by
    simp [collides, share, hvalue, hvalue']
  rw [hindexed.unique slot other doc doc' hdoc hdoc' hne] at hcollides
  cases hcollides

end Writes

end AiBuddy.Conversation
