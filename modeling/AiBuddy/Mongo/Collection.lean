import Mathlib.Data.List.Nodup
import AiBuddy.Misc.Program

/-!
# A Mongo collection and its single-document commands

`find_one`, `update_one` and `find_one_and_update` over documents with top-level
fields. Each command is atomic. Where several documents match, any one of them may
be taken. The journal keeps what every update has written.
-/

namespace Mongo

inductive Value where
  | null
  | bool (flag : Bool)
  | int (number : Int)
  | str (text : String)
  | other (text : String)
  deriving DecidableEq

abbrev Document := List (String × Value)

namespace Document

def get (doc : Document) (path : String) : Option Value := doc.lookup path

def put (path : String) (value : Value) : Document → Document
  | [] => [(path, value)]
  | (name, old) :: rest =>
    if name = path then (path, value) :: rest else (name, old) :: put path value rest

def erase (path : String) (doc : Document) : Document := doc.filter (fun field => field.1 ≠ path)

@[simp] theorem get_nil (path : String) : get [] path = none := rfl

@[simp] theorem get_cons (name : String) (value : Value) (rest : Document) (path : String) :
    get ((name, value) :: rest) path = if path = name then some value else get rest path := by
  by_cases h : path = name
  · simp [get, h]
  · simp [get, List.lookup_cons, beq_eq_false_iff_ne.mpr h, h]

theorem get_put (path name : String) (value : Value) (doc : Document) :
    (doc.put path value).get name = if name = path then some value else doc.get name := by
  induction doc with
  | nil => simp [put]
  | cons field rest ih =>
    obtain ⟨first, old⟩ := field
    by_cases hfirst : first = path
    · subst hfirst
      by_cases h : name = first <;> simp [put, h]
    · by_cases h : name = first
      · subst h
        simp [put, hfirst]
      · simp [put, hfirst, h, ih]

end Document

/-- One entry of a filter: a field with its condition, or `$and` and `$or` with theirs. `fixes` are
the fields that an upsert copies into a new document. -/
structure Clause where
  key : String
  holds : Document → Bool
  fixes : Document

abbrev Filter := List Clause

def Filter.accepts (filter : Filter) (doc : Document) : Bool :=
  filter.all (fun clause => clause.holds doc)

theorem Filter.accepts_append {first second : Filter} {doc : Document}
    (h : Filter.accepts (first ++ second) doc = true) :
    Filter.accepts first doc = true ∧ Filter.accepts second doc = true := by
  rw [Filter.accepts, List.all_append, Bool.and_eq_true] at h
  exact h

/-- `{path: value}`. A missing field counts as null. -/
def Clause.equals (path : String) (value : Value) : Clause where
  key := path
  holds doc := (doc.get path).getD .null = value
  fixes := [(path, value)]

def Clause.among (path : String) (values : List Value) : Clause where
  key := path
  holds doc := (doc.get path).getD .null ∈ values
  fixes := []

def Clause.missing (path : String) : Clause where
  key := path
  holds doc := (doc.get path).isNone
  fixes := []

/-- `{path: {"$lte": bound}}`. Only numbers are compared with a number. -/
def Clause.atMost (path : String) (bound : Int) : Clause where
  key := path
  holds doc :=
    match doc.get path with
    | some (.int number) => number ≤ bound
    | _ => false
  fixes := []

def Clause.and (filters : List Filter) : Clause where
  key := "$and"
  holds doc := filters.all (fun filter => filter.accepts doc)
  fixes := filters.flatMap (fun filter => filter.flatMap Clause.fixes)

def Clause.or (filters : List Filter) : Clause where
  key := "$or"
  holds doc := filters.any (fun filter => filter.accepts doc)
  fixes := []

/-- The operators of an update: `$set`, `$setOnInsert`, and those that compute a field from what
it was, such as `$inc` and `$unset`. -/
structure Update where
  set : Document
  setOnInsert : Document := []
  modify : List (String × (Option Value → Option Value)) := []

namespace Update

def paths (update : Update) : List String :=
  update.set.map Prod.fst ++ update.setOnInsert.map Prod.fst ++ update.modify.map Prod.fst

def conflicts (update : Update) : Bool := ¬update.paths.Nodup

def modifyField (doc : Document) (operator : String × (Option Value → Option Value)) : Document :=
  match operator.2 (doc.get operator.1) with
  | some value => doc.put operator.1 value
  | none => doc.erase operator.1

def assign (fields doc : Document) : Document :=
  fields.foldr (fun field doc => doc.put field.1 field.2) doc

def apply (update : Update) (inserting : Bool) (doc : Document) : Document :=
  let modified := update.modify.foldl modifyField doc
  assign update.set (if inserting then assign update.setOnInsert modified else modified)

theorem get_assign (fields doc : Document) (path : String) :
    (assign fields doc).get path = (fields.get path).or (doc.get path) := by
  induction fields with
  | nil => simp [assign]
  | cons field rest ih =>
    obtain ⟨name, value⟩ := field
    simp only [assign, List.foldr_cons] at ih ⊢
    by_cases h : path = name
    · simp [Document.get_put, h]
    · rw [Document.get_put, if_neg h, ih, Document.get_cons, if_neg h]

theorem get_apply {update : Update} {path : String} {value : Value}
    (h : update.set.get path = some value) (inserting : Bool) (doc : Document) :
    (update.apply inserting doc).get path = some value := by
  simp [apply, get_assign, h]

end Update

inductive Error where
  | duplicateKey
  | conflictingUpdate
  | connection
  deriving DecidableEq

/-- The documents by slot, in the order of insertion. A slot is one document for good: it is empty
once that document is deleted. -/
structure Collection where
  slots : List (Option Document)

variable {c : Collection} {filter : Filter} {slot : Nat}

namespace Collection

def doc (c : Collection) (slot : Nat) : Option Document := (c.slots[slot]?).join

def «matching» (c : Collection) (filter : Filter) : List (Nat × Document) :=
  (List.range c.slots.length).filterMap fun slot =>
    ((c.doc slot).filter filter.accepts).map (fun doc => (slot, doc))

def select (c : Collection) (choice : Nat) (filter : Filter) : Option (Nat × Document) :=
  (c.matching filter)[choice % (c.matching filter).length]?

def clashes (c : Collection) (collides : Document → Document → Bool) (slot : Nat)
    (doc : Document) : Bool :=
  (List.range c.slots.length).any fun other =>
    other ≠ slot && (c.doc other).any (collides doc)

def replace (c : Collection) (slot : Nat) (doc : Document) : Collection :=
  ⟨c.slots.set slot (some doc)⟩

def insert (c : Collection) (doc : Document) : Collection := ⟨c.slots ++ [some doc]⟩

theorem mem_matching {doc : Document} :
    (slot, doc) ∈ c.matching filter ↔ c.doc slot = some doc ∧ filter.accepts doc = true := by
  simp only [«matching», List.mem_filterMap, List.mem_range, Option.map_eq_some_iff,
    Option.filter_eq_some_iff, Prod.mk.injEq]
  constructor
  · rintro ⟨_, _, _, ⟨hdoc, haccepts⟩, rfl, rfl⟩
    exact ⟨hdoc, haccepts⟩
  · rintro ⟨hdoc, haccepts⟩
    refine ⟨slot, ?_, doc, ⟨hdoc, haccepts⟩, rfl, rfl⟩
    by_contra h
    simp [Collection.doc, List.getElem?_eq_none (Nat.le_of_not_lt h)] at hdoc

theorem select_eq_some {choice : Nat} {doc : Document}
    (h : c.select choice filter = some (slot, doc)) :
    c.doc slot = some doc ∧ filter.accepts doc = true :=
  mem_matching.mp (List.mem_of_getElem? h)

theorem lt_of_doc {doc : Document} (h : c.doc slot = some doc) : slot < c.slots.length := by
  by_contra hge
  simp [Collection.doc, List.getElem?_eq_none (Nat.le_of_not_lt hge)] at h

theorem doc_replace (h : slot < c.slots.length) (doc : Document) (other : Nat) :
    (c.replace slot doc).doc other = if other = slot then some doc else c.doc other := by
  by_cases hother : other = slot
  · subst hother
    simp [replace, Collection.doc, h]
  · simp [replace, Collection.doc, List.getElem?_set_ne (Ne.symm hother), hother]

theorem doc_insert (c : Collection) (doc : Document) (slot : Nat) :
    (c.insert doc).doc slot = if slot = c.slots.length then some doc else c.doc slot := by
  rcases Nat.lt_trichotomy slot c.slots.length with h | h | h
  · simp [insert, Collection.doc, List.getElem?_append_left h, Nat.ne_of_lt h]
  · simp [insert, Collection.doc, h]
  · rw [if_neg (Nat.ne_of_gt h)]
    simp [insert, Collection.doc, List.getElem?_eq_none (Nat.le_of_lt h),
      List.getElem?_eq_none (show (c.slots ++ [some doc]).length ≤ slot by simp; omega)]

end Collection

structure Landed where
  slot : Nat
  before : Option Document
  update : Update

structure Store where
  collection : Collection
  landed : List Landed

namespace Store

variable (collides : Document → Document → Bool) (choice : Nat)

/-- The write of `update_one` and `find_one_and_update`, with the document before and after. -/
def write (filter : Filter) (update : Update) (upsert : Bool) (s : Store) :
    Except Error (Option (Option Document × Document)) × Store :=
  if update.conflicts then (.error .conflictingUpdate, s)
  else
    match s.collection.select choice filter with
    | some (slot, doc) =>
      let after := update.apply false doc
      if s.collection.clashes collides slot after then (.error .duplicateKey, s)
      else
        (.ok (some (some doc, after)),
          ⟨s.collection.replace slot after, ⟨slot, some doc, update⟩ :: s.landed⟩)
    | none =>
      if upsert then
        let after := update.apply true (Update.assign (filter.flatMap Clause.fixes) [])
        let slot := s.collection.slots.length
        if s.collection.clashes collides slot after then (.error .duplicateKey, s)
        else
          (.ok (some (none, after)),
            ⟨s.collection.insert after, ⟨slot, none, update⟩ :: s.landed⟩)
      else (.ok none, s)

end Store

structure UpdateResult where
  matchedCount : Nat
  upserted : Bool
  deriving DecidableEq

inductive Command : Type → Type where
  | findOne (filter : Filter) : Command (Option Document)
  | updateOne (filter : Filter) (update : Update) (upsert : Bool) : Command UpdateResult
  | findOneAndUpdate (filter : Filter) (update : Update) (upsert returnAfter : Bool) :
      Command (Option Document)

def updateResult : Option (Option Document × Document) → UpdateResult
  | none => ⟨0, false⟩
  | some (none, _) => ⟨0, true⟩
  | some (some _, _) => ⟨1, false⟩

/-- The document that `find_one_and_update` answers with. -/
def returned (returnAfter : Bool) : Option (Option Document × Document) → Option Document
  | none => none
  | some (before, after) => if returnAfter then some after else before

def Command.run (collides : Document → Document → Bool) (choice : Nat) {α : Type}
    (command : Command α) (s : Store) : Except Error α × Store :=
  match command with
  | .findOne filter => (.ok ((s.collection.select choice filter).map Prod.snd), s)
  | .updateOne filter update upsert =>
    let (written, s') := s.write collides choice filter update upsert
    (written.map updateResult, s')
  | .findOneAndUpdate filter update upsert returnAfter =>
    let (written, s') := s.write collides choice filter update upsert
    (written.map (returned returnAfter), s')

/-- A command takes any of the documents it matches, and the connection may be lost before or
after it. -/
def Performed (collides : Document → Document → Bool) {α : Type} (command : Command α) (s : Store)
    (reply : Except Error α) (s' : Store) : Prop :=
  ∃ choice, Program.Answers .connection (command.run collides choice) s reply s'

def Command.answer (collides : Document → Document → Bool) {β : Type}
    (command : Program.Remote Error Command β) (s : Store) : β × Store :=
  Program.Remote.answer (fun command => command.run collides 0) command s

def Command.update? {α : Type} (command : Command α) : Option (Filter × Update × Bool) :=
  match command with
  | .findOne _ => none
  | .updateOne filter update upsert => some (filter, update, upsert)
  | .findOneAndUpdate filter update upsert _ => some (filter, update, upsert)

/-- What a command may have done: nothing, update a document that it matches, or insert one. -/
inductive Effect {α : Type} (command : Command α) (s : Store) : Store → Prop where
  | nothing : Effect command s s
  | updated {filter : Filter} {update : Update} {upsert : Bool} {slot : Nat} {doc : Document} :
      command.update? = some (filter, update, upsert) → s.collection.doc slot = some doc →
      filter.accepts doc = true →
      Effect command s
        ⟨s.collection.replace slot (update.apply false doc), ⟨slot, some doc, update⟩ :: s.landed⟩
  | inserted {filter : Filter} {update : Update} :
      command.update? = some (filter, update, true) →
      Effect command s
        ⟨s.collection.insert
            (update.apply true (Update.assign (filter.flatMap Clause.fixes) [])),
          ⟨s.collection.slots.length, none, update⟩ :: s.landed⟩

variable {α : Type}

variable {s : Store}

theorem effect_write {collides : Document → Document → Bool} {choice : Nat} {command : Command α}
    {update : Update} {upsert : Bool} (h : command.update? = some (filter, update, upsert)) :
    Effect command s (s.write collides choice filter update upsert).2 := by
  unfold Store.write
  split
  · exact .nothing
  · split
    · next slot doc hselect =>
      obtain ⟨hdoc, haccepts⟩ := Collection.select_eq_some hselect
      dsimp only
      split
      · exact .nothing
      · exact .updated h hdoc haccepts
    · split
      · next hupsert =>
        subst hupsert
        dsimp only
        split
        · exact .nothing
        · exact .inserted h
      · exact .nothing

theorem effect_run {collides : Document → Document → Bool} {choice : Nat} {command : Command α} :
    Effect command s (command.run collides choice s).2 := by
  cases command with
  | findOne filter => exact .nothing
  | updateOne filter update upsert => exact effect_write rfl
  | findOneAndUpdate filter update upsert returnAfter => exact effect_write rfl

theorem effect_of_performed {collides : Document → Document → Bool} {command : Command α}
    {s' : Store} {reply : Except Error α} (h : Performed collides command s reply s') :
    Effect command s s' := by
  obtain ⟨choice, hanswers⟩ := h
  rcases hanswers.state with rfl | rfl
  · exact .nothing
  · exact effect_run

end Mongo
