import AiBuddy.Mongo.Collection
import AiBuddy.Queue.JobLease.Scripts

/-!
# Fenced Mongo writes (`services/queue/mongo_fence.py`)

`fenced_update_one` and `fenced_find_one_and_update`, with the lease of the caller as an
argument in place of the context variable. The hook of the tests is left out.
-/

namespace AiBuddy.Queue.MongoFence

open Mongo Program JobLease

def fenceField : String := "processingFence"

inductive WriteError where
  | staleOwnership (logicalKey reason : String)
  | mongo (error : Mongo.Error)
  deriving DecidableEq

abbrev Writing (α : Type) := Raising (Remote Mongo.Error Mongo.Command) WriteError α

def leaseFenceToken : Option LeaseObject → Except WriteError (Option Int)
  | none => .ok none
  | some object =>
    if object.lost || object.released then
      .error (.staleOwnership object.lease.logicalKey
        (if object.reason ≠ "" then object.reason else "lease_lost"))
    else
      match Text.int? object.lease.token with
      | some token => .ok (some token)
      | none => .error (.staleOwnership object.lease.logicalKey "bad_fence")

def fenceClause (token : Int) : Filter :=
  [.or [[.missing fenceField], [.equals fenceField .null], [.atMost fenceField token]]]

def fencedFilter (base : Filter) (token : Int) : Filter := [.and [base, fenceClause token]]

def withFence (update : Update) (token : Int) : Update :=
  { update with set := update.set.put fenceField (.int token) }

/-- Python `int(value or 0)`, with 0 where that raises. -/
def intOrZero : Value → Int
  | .int number => number
  | .bool flag => if flag then 1 else 0
  | .str text => if text = "" then 0 else (Text.int? text).getD 0
  | .null => 0
  | .other _ => 0

def documentFence : Option Document → Int
  | none => 0
  | some doc => intOrZero ((doc.get fenceField).getD .null)

def probeFilter (base : Filter) : Filter :=
  match base.find? (fun clause => clause.key = "_id") with
  | some clause => [clause]
  | none =>
    let ident := ["userId", "dateKey", "conversationId", "fingerprint"].filterMap
      fun key => base.find? (fun clause => clause.key = key)
    if ident.isEmpty then base else ident

def rejectIfNewer (object : Option LeaseObject) (base : Filter) (token : Int) : Writing Unit := do
  let existing ← send .mongo (.findOne (probeFilter base))
  if existing.isSome && documentFence existing > token then
    throw (.staleOwnership ((object.map (·.lease.logicalKey)).getD "job") "stale_fence")

/-- The upsert at the end of both functions: a duplicate key is followed by another probe. -/
def upsertOrReject {α : Type} (object : Option LeaseObject) (base : Filter) (token : Int)
    (command : Mongo.Command α) : Writing α := do
  match ← attempt (send .mongo command) with
  | .ok result => return result
  | .error error =>
    if error = .mongo .duplicateKey then rejectIfNewer object base token
    throw error

def fencedUpdateOne (object : Option LeaseObject) (base : Filter) (update : Update)
    (upsert : Bool) : Writing UpdateResult := do
  match ← ExceptT.mk (.ret (leaseFenceToken object)) with
  | none => send .mongo (.updateOne base update upsert)
  | some token =>
    let result ← send .mongo (.updateOne (fencedFilter base token) (withFence update token) false)
    if result.matchedCount > 0 then return result
    rejectIfNewer object base token
    if upsert then
      upsertOrReject object base token (.updateOne base (withFence update token) true)
    else return result

def fencedFindOneAndUpdate (object : Option LeaseObject) (base : Filter) (update : Update)
    (upsert returnAfter : Bool) : Writing (Option Document) := do
  match ← ExceptT.mk (.ret (leaseFenceToken object)) with
  | none => send .mongo (.findOneAndUpdate base update upsert returnAfter)
  | some token =>
    let result ← send .mongo
      (.findOneAndUpdate (fencedFilter base token) (withFence update token) false returnAfter)
    if result.isSome then return result
    rejectIfNewer object base token
    if upsert then
      upsertOrReject object base token
        (.findOneAndUpdate base (withFence update token) true returnAfter)
    else return none

inductive WriteCall where
  | updateOne (object : LeaseObject) (base : Filter) (update : Update) (upsert : Bool)
  | findOneAndUpdate (object : LeaseObject) (base : Filter) (update : Update)
      (upsert returnAfter : Bool)

def WriteCall.program : WriteCall → Program (Remote Mongo.Error Mongo.Command) Unit
  | .updateOne object base update upsert =>
    (fencedUpdateOne (some object) base update upsert).run >>= fun _ => .ret ()
  | .findOneAndUpdate object base update upsert returnAfter =>
    (fencedFindOneAndUpdate (some object) base update upsert returnAfter).run >>= fun _ => .ret ()

def Attempts (_ : Store) (prog : Program (Remote Mongo.Error Mongo.Command) Unit) : Prop :=
  ∃ call : WriteCall, prog = call.program

/-- What else happens to the collection: documents are inserted and deleted, and other code
updates fields but the fence. -/
structure Elsewhere (s s' : Store) : Prop where
  grows : s.collection.slots.length ≤ s'.collection.slots.length
  fences : ∀ slot doc', slot < s.collection.slots.length → s'.collection.doc slot = some doc' →
    ∃ doc, s.collection.doc slot = some doc ∧ doc'.get fenceField = doc.get fenceField
  landed : s'.landed = s.landed

def fenceOf (fields : Document) : Option Int :=
  match fields.get fenceField with
  | some (.int number) => some number
  | _ => none

/-- Where the command may insert, no document that its filter accepts has a fence above the
token that the command carries. -/
def nothingNewer {α : Type} (command : Mongo.Command α) (s : Store) : Bool :=
  match command.update? with
  | some (filter, update, true) =>
    (s.collection.matching filter).all fun found =>
      match fenceOf found.2, fenceOf update.set with
      | some fence, some token => fence ≤ token
      | _, _ => true
  | _ => true

/-- The runs from a collection, with any number of calls under way at any time. `allowed`
restricts the commands to those that meet a condition. -/
abbrev WriteRun (collides : Document → Document → Bool)
    (allowed : ∀ {α : Type}, Mongo.Command α → Store → Prop) (collection : Collection) :
    Pool (Remote Mongo.Error Mongo.Command) Unit Store → Prop :=
  Pool.Run
    (Remote.semantics fun command s reply s' =>
      allowed command s ∧ Mongo.Performed collides command s reply s')
    Attempts Elsewhere ⟨collection, []⟩

end AiBuddy.Queue.MongoFence
