import Mathlib.Logic.Function.Basic
import AiBuddy.Misc.Text

/-!
# A Redis keyspace and its commands

The part of the Redis 7 command set that queue code uses, over an arbitrary type
`K` of keys. A `Script` is a command or a Lua script: it answers or ends in an
error, and what it wrote before an error stays written, because Redis does not
roll a script back. A key whose deadline has passed reads as absent.
-/

namespace Redis

/-- What a client may get in place of an answer: the error replies of the modelled commands, a
`reply` that a script raises itself, and a lost connection. -/
inductive Error where
  | wrongType
  | notAnInteger
  | overflow
  | invalidExpire
  | noGroup
  | busyGroup
  | reply (message : String)
  | connection
  deriving DecidableEq

abbrev Fields := List (String × String)

structure PendingRow where
  id : Nat
  consumer : String
  deliveredAt : Nat
  deliveries : Nat
  deriving DecidableEq

/-- A consumer group: the last id it delivered and what is delivered but not acknowledged. -/
structure Group where
  lastDelivered : Nat
  pending : List PendingRow
  deriving DecidableEq

structure Stream where
  entries : List (Nat × Fields)
  lastId : Nat
  groups : String → Option Group

inductive Value where
  | string (text : String)
  | list (items : List String)
  | hash (fields : Fields)
  | set (members : List String)
  | stream (stream : Stream)

structure Entry where
  value : Value
  expireAt : Option Nat

structure Db (K : Type) where
  now : Nat
  find : K → Option Entry

def Entry.alive (entry : Entry) (now : Nat) : Bool :=
  match entry.expireAt with
  | none => true
  | some deadline => decide (now ≤ deadline)

variable {entry : Entry}

theorem Entry.alive_of_deadline {deadline : Nat} (h : entry.expireAt = some deadline) (now : Nat) :
    entry.alive now = true ↔ now ≤ deadline := by simp [Entry.alive, h]

def Script (K α : Type) := Db K → Except Error α × Db K

namespace Script

variable {K α β : Type}

def ok (value : α) : Script K α := fun db => (.ok value, db)

/-- `redis.error_reply(message)`, and any other way a script ends early. -/
def fail (error : Error) : Script K α := fun db => (.error error, db)

def andThen (first : Script K α) (next : α → Script K β) : Script K β := fun db =>
  match first db with
  | (.ok value, db') => next value db'
  | (.error error, db') => (.error error, db')

instance : Monad (Script K) where
  pure := ok
  bind := andThen

@[simp] theorem pure_apply (value : α) (db : Db K) :
    (pure value : Script K α) db = (.ok value, db) := rfl

@[simp] theorem ok_apply (value : α) (db : Db K) : (ok value : Script K α) db = (.ok value, db) :=
    rfl

@[simp] theorem fail_apply (error : Error) (db : Db K) :
    (fail error : Script K α) db = (.error error, db) := rfl

@[simp] theorem ok_bind (value : α) (next : α → Script K β) : (ok value >>= next) = next value :=
    rfl

theorem bind_apply (first : Script K α) (next : α → Script K β) (db : Db K) :
    (first >>= next) db =
      match first db with
      | (.ok value, db') => next value db'
      | (.error error, db') => (.error error, db') := rfl

theorem bind_assoc {γ : Type} (first : Script K α) (next : α → Script K β) (last : β → Script K γ) :
    (first >>= next) >>= last = first >>= fun value => next value >>= last := by
  funext db
  show andThen (andThen first next) last db =
    andThen first (fun value => andThen (next value) last) db
  unfold andThen
  rcases first db with ⟨_ | _, _⟩ <;> rfl

theorem bind_of_ok {first : Script K α} {next : α → Script K β} {db db' : Db K} {value : α}
    (h : first db = (.ok value, db')) : (first >>= next) db = next value db' := by
  rw [bind_apply, h]

theorem bind_of_error {first : Script K α} {next : α → Script K β} {db db' : Db K} {error : Error}
    (h : first db = (.error error, db')) : (first >>= next) db = (.error error, db') := by
  rw [bind_apply, h]

theorem bind_eq_ok {first : Script K α} {next : α → Script K β} {db db' : Db K} {value : β}
    (h : (first >>= next) db = (.ok value, db')) :
    ∃ middle db₁, first db = (.ok middle, db₁) ∧ next middle db₁ = (.ok value, db') := by
  rw [bind_apply] at h
  split at h
  · rename_i middle db₁ hfirst
    exact ⟨middle, db₁, hfirst, h⟩
  · cases h

end Script

def Stream.empty : Stream := ⟨[], 0, fun _ => none⟩

namespace Db

section Reading

variable {K : Type}

def live (db : Db K) (key : K) : Option Entry :=
  (db.find key).filter (fun entry => entry.alive db.now)

def advance (db : Db K) (millis : Nat) : Db K := { db with now := db.now + millis }

def Readable (db : Db K) (key : K) : Prop :=
  ∀ entry, db.live key = some entry → ∃ text, entry.value = .string text

def string? (db : Db K) (key : K) : Option String :=
  match db.live key with
  | some ⟨.string text, _⟩ => some text
  | _ => none

def list (db : Db K) (key : K) : List String :=
  match db.live key with
  | some ⟨.list items, _⟩ => items
  | _ => []

def set (db : Db K) (key : K) : List String :=
  match db.live key with
  | some ⟨.set members, _⟩ => members
  | _ => []

def hash? (db : Db K) (key : K) : Option Fields :=
  match db.live key with
  | some ⟨.hash fields, _⟩ => some fields
  | _ => none

def stream (db : Db K) (key : K) : Stream :=
  match db.live key with
  | some ⟨.stream stream, _⟩ => stream
  | _ => Stream.empty

@[simp] theorem now_advance (db : Db K) (millis : Nat) :
    (db.advance millis).now = db.now + millis := rfl

@[simp] theorem find_advance (db : Db K) (millis : Nat) (key : K) :
    (db.advance millis).find key = db.find key := rfl

theorem live_eq_some {db : Db K} {key : K} :
    db.live key = some entry ↔ db.find key = some entry ∧ entry.alive db.now = true := by
  simp [live, Option.filter_eq_some_iff]

theorem live_congr {db db' : Db K} {key : K} (hfind : db'.find key = db.find key)
    (hnow : db'.now = db.now) : db'.live key = db.live key := by
  simp [live, hfind, hnow]

end Reading

section Writing

variable {K : Type} [DecidableEq K]

def put (db : Db K) (key : K) (entry : Entry) : Db K :=
  { db with find := Function.update db.find key (some entry) }

def remove (db : Db K) (key : K) : Db K :=
  { db with find := Function.update db.find key none }

def store (db : Db K) (key : K) (value : Value) : Db K :=
  db.put key ⟨value, (db.live key).bind Entry.expireAt⟩

def storeList (db : Db K) (key : K) (items : List String) : Db K :=
  if items.isEmpty then db.remove key else db.store key (.list items)

@[simp] theorem now_put (db : Db K) (key : K) (entry : Entry) : (db.put key entry).now = db.now :=
    rfl
@[simp] theorem now_remove (db : Db K) (key : K) : (db.remove key).now = db.now := rfl
@[simp] theorem now_store (db : Db K) (key : K) (value : Value) :
    (db.store key value).now = db.now := rfl

@[simp] theorem find_put_self (db : Db K) (key : K) (entry : Entry) :
    (db.put key entry).find key = some entry := by simp [put]

theorem find_put_of_ne (db : Db K) {key other : K} (h : other ≠ key) (entry : Entry) :
    (db.put key entry).find other = db.find other := by simp [put, h]

@[simp] theorem find_remove_self (db : Db K) (key : K) : (db.remove key).find key = none := by
  simp [remove]

theorem find_remove_of_ne (db : Db K) {key other : K} (h : other ≠ key) :
    (db.remove key).find other = db.find other := by simp [remove, h]

theorem live_put_self (db : Db K) (key : K) (entry : Entry) :
    (db.put key entry).live key = if entry.alive db.now then some entry else none := by
  cases h : entry.alive db.now <;> simp [live, Option.filter, h]

@[simp] theorem put_put (db : Db K) (key : K) (entry entry' : Entry) :
    (db.put key entry).put key entry' = db.put key entry' := by
  simp [put, Function.update_idem]

@[simp] theorem store_put (db : Db K) (key : K) (value : Value) (entry : Entry) :
    (db.store key value).put key entry = db.put key entry := put_put db key _ entry

theorem live_put_ahead (db : Db K) (key : K) (value : Value) (millis : Nat) :
    (db.put key ⟨value, some (db.now + millis)⟩).live key =
      some ⟨value, some (db.now + millis)⟩ := by
  rw [live_put_self, if_pos ((Entry.alive_of_deadline rfl _).mpr (by omega))]

theorem live_put_of_ne (db : Db K) {key other : K} (h : other ≠ key) (entry : Entry) :
    (db.put key entry).live other = db.live other :=
  live_congr (find_put_of_ne db h entry) rfl

@[simp] theorem live_remove_self (db : Db K) (key : K) : (db.remove key).live key = none := by
  simp [live]

theorem live_remove_of_ne (db : Db K) {key other : K} (h : other ≠ key) :
    (db.remove key).live other = db.live other :=
  live_congr (find_remove_of_ne db h) rfl

@[simp] theorem live_store_self (db : Db K) (key : K) (value : Value) :
    (db.store key value).live key = some ⟨value, (db.live key).bind Entry.expireAt⟩ := by
  have halive : Entry.alive ⟨value, (db.live key).bind Entry.expireAt⟩ db.now = true := by
    cases hlive : db.live key with
    | none => simp [Entry.alive]
    | some entry =>
      have := (live_eq_some.mp hlive).2
      simpa [Entry.alive] using this
  simp [store, live_put_self, halive]

theorem live_store_of_ne (db : Db K) {key other : K} (h : other ≠ key) (value : Value) :
    (db.store key value).live other = db.live other :=
  live_put_of_ne db h _

end Writing

end Db

section Commands

variable {K : Type}

def get (key : K) : Script K (Option String) := fun db =>
  match db.live key with
  | none => (.ok none, db)
  | some ⟨.string text, _⟩ => (.ok (some text), db)
  | some _ => (.error .wrongType, db)

variable [DecidableEq K]

def setPx (key : K) (text : String) (millis : Int) : Script K Unit := fun db =>
  if millis ≤ 0 then (.error .invalidExpire, db)
  else (.ok (), db.put key ⟨.string text, some (db.now + millis.toNat)⟩)

def set (key : K) (text : String) : Script K Unit := fun db =>
  (.ok (), db.put key ⟨.string text, none⟩)

def del (key : K) : Script K Int := fun db =>
  (.ok (if (db.live key).isSome then 1 else 0), db.remove key)

def counterBound : Int := 9223372036854775808

def counter? (text : String) : Option Int :=
  (Text.decimal? text).filter (fun n => n.repr = text ∧ -counterBound ≤ n ∧ n < counterBound)

/-- `INCR key`. An absent key counts as zero, the deadline of the key is kept. -/
def incr (key : K) : Script K Int := fun db =>
  match db.live key with
  | none => (.ok 1, db.put key ⟨.string (1 : Int).repr, none⟩)
  | some ⟨.string text, expireAt⟩ =>
    match counter? text with
    | none => (.error .notAnInteger, db)
    | some n =>
      if n + 1 < counterBound then (.ok (n + 1), db.put key ⟨.string (n + 1).repr, expireAt⟩)
      else (.error .overflow, db)
  | some _ => (.error .wrongType, db)

/-- `PEXPIRE key millis`. A deadline that is not in the future deletes the key. -/
def pexpire (key : K) (millis : Int) : Script K Int := fun db =>
  match db.live key with
  | none => (.ok 0, db)
  | some entry =>
    if millis ≤ 0 then (.ok 1, db.remove key)
    else (.ok 1, db.put key { entry with expireAt := some (db.now + millis.toNat) })

def expire (key : K) (seconds : Int) : Script K Int := pexpire key (seconds * 1000)

def Db.kind (db : Db K) (key : K) : String :=
  match db.live key with
  | none => "none"
  | some ⟨.string _, _⟩ => "string"
  | some ⟨.list _, _⟩ => "list"
  | some ⟨.hash _, _⟩ => "hash"
  | some ⟨.set _, _⟩ => "set"
  | some ⟨.stream _, _⟩ => "stream"

def typeOf (key : K) : Script K String := fun db => (.ok (db.kind key), db)

def «exists» (key : K) : Script K Int := fun db =>
  (.ok (if (db.live key).isSome then 1 else 0), db)

def Fields.insert (fields : Fields) (field value : String) : Fields :=
  (field, value) :: fields.filter (fun pair => pair.1 ≠ field)

def Fields.insertAll (fields pairs : Fields) : Fields :=
  pairs.foldl (fun fields pair => Fields.insert fields pair.1 pair.2) fields

def hset (key : K) (pairs : Fields) : Script K Unit := fun db =>
  match db.live key with
  | none => (.ok (), db.store key (.hash (Fields.insertAll [] pairs)))
  | some ⟨.hash fields, _⟩ => (.ok (), db.store key (.hash (fields.insertAll pairs)))
  | some _ => (.error .wrongType, db)

def hget (key : K) (field : String) : Script K (Option String) := fun db =>
  match db.live key with
  | none => (.ok none, db)
  | some ⟨.hash fields, _⟩ => (.ok (fields.lookup field), db)
  | some _ => (.error .wrongType, db)

def hgetall (key : K) : Script K Fields := fun db =>
  match db.live key with
  | none => (.ok [], db)
  | some ⟨.hash fields, _⟩ => (.ok fields, db)
  | some _ => (.error .wrongType, db)

def readList (key : K) : Script K (List String) := fun db =>
  match db.live key with
  | none => (.ok [], db)
  | some ⟨.list items, _⟩ => (.ok items, db)
  | some _ => (.error .wrongType, db)

def writeList (key : K) (items : List String) : Script K Unit := fun db =>
  (.ok (), db.storeList key items)

def lpush (key : K) (item : String) : Script K Int := do
  let items ← readList key
  writeList key (item :: items)
  return items.length + 1

def llen (key : K) : Script K Int := do
  let items ← readList key
  return items.length

/-- `LINDEX key -1`: the item at the right end. -/
def lindexLast (key : K) : Script K (Option String) := do
  let items ← readList key
  return items.getLast?

/-- `LREM key 1 item`: remove the first equal item, counted from the left. -/
def lrem (key : K) (item : String) : Script K Int := do
  let items ← readList key
  if item ∈ items then
    writeList key (items.erase item)
    return 1
  else
    return 0

def lmoveRightLeft (source destination : K) : Script K (Option String) := do
  let items ← readList source
  match items.getLast? with
  | none => return none
  | some item =>
    let _ ← readList destination
    writeList source items.dropLast
    let there ← readList destination
    writeList destination (item :: there)
    return some item

def sismember (key : K) (member : String) : Script K Int := fun db =>
  match db.live key with
  | none => (.ok 0, db)
  | some ⟨.set members, _⟩ => (.ok (if member ∈ members then 1 else 0), db)
  | some _ => (.error .wrongType, db)

def sadd (key : K) (member : String) : Script K Int := fun db =>
  match db.live key with
  | none => (.ok 1, db.store key (.set [member]))
  | some ⟨.set members, _⟩ =>
    if member ∈ members then (.ok 0, db) else (.ok 1, db.store key (.set (member :: members)))
  | some _ => (.error .wrongType, db)

end Commands

variable {fields : Fields}

section Kinds

variable {K : Type} {db : Db K} {key : K}

@[simp] theorem typeOf_apply (key : K) (db : Db K) : typeOf key db = (.ok (db.kind key), db) := rfl

theorem kind_eq_none : db.kind key = "none" ↔ db.live key = none := by
  unfold Db.kind
  split <;> simp_all

theorem kind_eq_hash : db.kind key = "hash" ↔ ∃ fields, db.hash? key = some fields := by
  unfold Db.kind Db.hash?
  split <;> simp_all

theorem hash?_eq_some :
    db.hash? key = some fields ↔ ∃ expireAt, db.live key = some ⟨.hash fields, expireAt⟩ := by
  unfold Db.hash?
  split <;> simp_all

theorem value_of_hash? (h : db.hash? key = some fields) :
    (db.live key).map Entry.value = some (.hash fields) := by
  obtain ⟨expireAt, hlive⟩ := hash?_eq_some.mp h
  rw [hlive]
  rfl

theorem hash?_congr {db' : Db K}
    (h : (db'.live key).map Entry.value = (db.live key).map Entry.value) :
    db'.hash? key = db.hash? key := by
  have via : ∀ db : Db K, db.hash? key =
      ((db.live key).map Entry.value).bind
        (fun value => match value with | .hash fields => some fields | _ => none) := by
    intro db
    unfold Db.hash?
    rcases db.live key with _ | ⟨_ | _ | _ | _ | _, _⟩ <;> rfl
  rw [via, via, h]

theorem hget_of_hash (h : db.hash? key = some fields) (field : String) :
    hget key field db = (.ok (fields.lookup field), db) := by
  obtain ⟨expireAt, hlive⟩ := hash?_eq_some.mp h
  simp [hget, hlive]

theorem readList_of_kind (h : db.kind key = "none" ∨ db.kind key = "list") :
    readList key db = (.ok (db.list key), db) := by
  unfold Db.kind at h
  unfold readList Db.list
  split at h <;> simp_all

variable [DecidableEq K]

theorem expire_of_live {seconds : Int} (h : db.live key = some entry) (hpos : 1 ≤ seconds) :
    expire key seconds db =
      (.ok 1, db.put key { entry with expireAt := some (db.now + (seconds * 1000).toNat) }) := by
  unfold expire pexpire
  rw [h]
  simp only
  rw [if_neg (by omega)]

theorem hset_expire {α : Type} {pairs : Fields} {seconds : Int} (next : Script K α)
    (h : db.live key = none) (hpos : 1 ≤ seconds) :
    (do hset key pairs
        let _ ← expire key seconds
        next : Script K α) db =
      next (db.put key ⟨.hash (Fields.insertAll [] pairs),
        some (db.now + (seconds * 1000).toNat)⟩) := by
  have hset_ok : hset key pairs db = (.ok (), db.store key (.hash (Fields.insertAll [] pairs))) :=
    by
    simp [hset, h]
  rw [Script.bind_of_ok hset_ok,
    Script.bind_of_ok (expire_of_live (Db.live_store_self db key _) hpos)]
  simp

end Kinds

section Strings

variable {K : Type} {db : Db K} {key : K}

theorem counter?_repr {n : Int} (hlow : -counterBound ≤ n) (hhigh : n < counterBound) :
    counter? n.repr = some n := by
  simp [counter?, Option.filter, hlow, hhigh]

theorem get_cases (db : Db K) (key : K) :
    (get key db = (.ok (db.string? key), db)) ∨ get key db = (.error .wrongType, db) := by
  unfold get Db.string?
  split <;> simp_all

theorem string?_of_get_error {error : Error} (h : get key db = (.error error, db)) :
    db.string? key = none := by
  unfold get at h
  unfold Db.string?
  split at h <;> simp_all

theorem get_eq_ok_iff_readable :
    get key db = (.ok (db.string? key), db) ↔ db.Readable key := by
  unfold get Db.string? Db.Readable
  cases h : db.live key with
  | none => simp
  | some entry =>
    obtain ⟨value, expireAt⟩ := entry
    cases value <;> simp

def Db.count (db : Db K) (key : K) : Int := ((db.string? key).bind counter?).getD 0

theorem count_ge (db : Db K) (key : K) : -counterBound ≤ db.count key := by
  unfold Db.count
  cases h : (db.string? key).bind counter? with
  | none => decide
  | some n =>
    obtain ⟨text, -, htext⟩ := Option.bind_eq_some_iff.mp h
    simp only [counter?, Option.filter_eq_some_iff, decide_eq_true_eq] at htext
    simpa using htext.2.2.1

variable [DecidableEq K]

theorem incr_eq_ok {n : Int} {db' : Db K} (h : incr key db = (.ok n, db')) :
    n = db.count key + 1 ∧ n < counterBound ∧
      ∃ expireAt, db' = db.put key ⟨.string n.repr, expireAt⟩ ∧
        (db.live key).bind Entry.expireAt = expireAt := by
  unfold incr at h
  split at h
  · rename_i hnone
    cases h
    refine ⟨by simp [Db.count, Db.string?, hnone], by decide, none, rfl, by simp [hnone]⟩
  · rename_i text expireAt hsome
    split at h
    · cases h
    · rename_i m hm
      split at h
      · cases h
        refine ⟨by simp [Db.count, Db.string?, hsome, hm], by omega, expireAt, rfl, by simp [hsome]⟩
      · cases h
  · cases h

theorem incr_of_count_ne_zero (h : db.count key ≠ 0) (hbound : db.count key + 1 < counterBound) :
    ∃ db', incr key db = (.ok (db.count key + 1), db') := by
  obtain ⟨n, hn⟩ : ∃ n, (db.string? key).bind counter? = some n := by
    cases hcount : (db.string? key).bind counter? with
    | none => exact absurd (by simp [Db.count, hcount]) h
    | some n => exact ⟨n, rfl⟩
  have hcount : db.count key = n := by simp [Db.count, hn]
  obtain ⟨text, htext, hnumber⟩ := Option.bind_eq_some_iff.mp hn
  unfold Db.string? at htext
  split at htext
  · rename_i expireAt hlive
    cases htext
    rw [hcount] at hbound ⊢
    unfold incr
    rw [hlive]
    simp only [hnumber, if_pos hbound]
    exact ⟨_, rfl⟩
  · cases htext

theorem incr_eq_error {error : Error} {db' : Db K} (h : incr key db = (.error error, db')) :
    db' = db := by
  unfold incr at h
  split at h
  · cases h
  · split at h
    · cases h; rfl
    · split at h <;> cases h
      rfl
  · cases h; rfl

end Strings

end Redis
