import AiBuddy.Queue.MongoFence.Writes

/-!
# Two attempts at one document

Attempts of different jobs that write the same document, each with the token of its own
lease, and the condition under which both writes take effect.
-/

namespace AiBuddy.Queue.MongoFence

open Mongo Program JobLease

namespace WriteCall

def object : WriteCall → LeaseObject
  | .updateOne object .. | .findOneAndUpdate object .. => object

def base : WriteCall → Filter
  | .updateOne _ base .. | .findOneAndUpdate _ base .. => base

def update : WriteCall → Update
  | .updateOne _ _ update _ | .findOneAndUpdate _ _ update .. => update

def token? (writeCall : WriteCall) : Option Int := Text.int? writeCall.object.lease.token

def outcome : WriteCall → Program (Remote Mongo.Error Mongo.Command) (Except WriteError Unit)
  | .updateOne object base update upsert =>
    (fencedUpdateOne (some object) base update upsert).run >>= fun result =>
      .ret (result.map fun _ => ())
  | .findOneAndUpdate object base update upsert returnAfter =>
    (fencedFindOneAndUpdate (some object) base update upsert returnAfter).run >>= fun result =>
      .ret (result.map fun _ => ())

def after (writeCall : WriteCall) (doc : Document) : Document :=
  match writeCall.token? with
  | some token => (withFence writeCall.update token).apply false doc
  | none => doc

end WriteCall

/-- The call holds a lease, its filter means the document in the slot and no other, before and
after the other call's update, and its update names no field twice. -/
structure Addresses (writeCall other : WriteCall) (slot : Nat) (doc : Document)
    (collection : Collection) : Prop where
  held : (writeCall.object.lost || writeCall.object.released) = false
  before : writeCall.base.accepts doc = true
  after : writeCall.base.accepts (other.after doc) = true
  alone : ∀ slot' doc', collection.doc slot' = some doc' →
    (probeFilter writeCall.base).accepts doc' = true → slot' = slot
  consistent : ∀ token, (withFence writeCall.update token).conflicts = false

/-- Two calls with leases of their own at one document, whose fence is a number if it has one. -/
structure Shared (first second : WriteCall) (slot : Nat) (doc : Document)
    (collection : Collection) : Prop where
  present : collection.doc slot = some doc
  fence : doc.get fenceField = none ∨ ∃ fence, doc.get fenceField = some (.int fence)
  leading : Addresses first second slot doc collection
  following : Addresses second first slot doc collection

/-- The two calls under way, and after the commands of a schedule. No unique index is on what they
write. -/
def sharedRun (first second : WriteCall) (collection : Collection) (order : List Nat) :
    Pool (Remote Mongo.Error Mongo.Command) (Except WriteError Unit) Store :=
  Pool.turns (Mongo.Command.answer fun _ _ => false) order
    ⟨[first.outcome, second.outcome], ⟨collection, []⟩⟩

def FirstLeads (order : List Nat) : Prop := order.idxOf 0 < order.idxOf 1

instance (order : List Nat) : Decidable (FirstLeads order) := Nat.decLt _ _

/-- The tokens are numbers, none is below the document's fence, and the call with the smaller one
comes first. -/
def InTurn (first second : WriteCall) (doc : Document) (order : List Nat) : Prop :=
  ∃ token token', first.token? = some token ∧ second.token? = some token' ∧
    (∀ fence, fenceOf doc = some fence → fence ≤ token ∧ fence ≤ token') ∧
    if FirstLeads order then token ≤ token' else token' ≤ token

end AiBuddy.Queue.MongoFence

/-!
## Rejections by a newer fence

The base filters of the fenced writes under `services/`, each with the fields that name its one
document, and what it is for a fenced write to be rejected.
-/

namespace AiBuddy.Queue.MongoFence

open Mongo Program JobLease

def differs (path : String) (value : Value) : Clause where
  key := path
  holds doc := (doc.get path).getD .null ≠ value
  fixes := []

inductive BaseFilter where
  /-- `{"_id": id, ...}`: conversations, meeting sessions, windows, artifacts, runs, tasks, notes,
  goals and goal jobs, with what else the filter asks for. -/
  | byId (id : Value) (guards : Filter)
  /-- `{"_id": {"$in": ids}}`: `mindmap/store.py:236`, `document_it/store.py:275`. -/
  | byIdAmong (ids : List Value)
  /-- `complete_transcript_chunk`, `conversation/repository.py:232`. -/
  | transcriptChunk (conversationIds : List Value) (sequenceNumber : Int)
  /-- The summary of a conversation, `conversation/repository.py:1001`. -/
  | summary (conversationId : Value)
  /-- The memory of a space, `conversation/repository.py:1016`. -/
  | spaceMemory (userId spaceId : Value)
  /-- A task or a note, `conversation/repository.py:1061`. -/
  | byFingerprint (fingerprint : Value)
  /-- `daily_briefing/store.py:228`. -/
  | briefing (userId dateKey : Value)
  /-- `goals/jobs.py:259`, `goals/jobs.py:324`, `goals/reviews.py:276`. -/
  | goalEvidence (goalId sourceType sourceId sourceRevision evidenceKey : Value)
  /-- The snapshot and the review of a period, `goals/reviews.py:314` and `:354`. -/
  | goalPeriod (goalId periodType periodKey : Value)
  /-- `goals/store.py:298`, `goals/reviews.py:343`. -/
  | planVersion (goalId version : Value)
  /-- `goals/reviews.py:379`. -/
  | proposedPlan (goalId version : Value)
  /-- `goals/store.py:445`. -/
  | researchSession (goalId operationId : Value)

namespace BaseFilter

def identity : BaseFilter → Filter
  | .byId id _ => [.equals "_id" id]
  | .byIdAmong ids => [.among "_id" ids]
  | .transcriptChunk conversationIds sequenceNumber =>
    [.among "conversationId" conversationIds,
      .among "sequenceNumber" [.int sequenceNumber, .str sequenceNumber.repr]]
  | .summary conversationId => [.equals "conversationId" conversationId]
  | .spaceMemory userId spaceId => [.equals "userId" userId, .equals "spaceId" spaceId]
  | .byFingerprint fingerprint => [.equals "fingerprint" fingerprint]
  | .briefing userId dateKey => [.equals "userId" userId, .equals "dateKey" dateKey]
  | .goalEvidence goalId sourceType sourceId sourceRevision evidenceKey =>
    [.equals "goalId" goalId, .equals "sourceType" sourceType, .equals "sourceId" sourceId,
      .equals "sourceRevision" sourceRevision, .equals "evidenceKey" evidenceKey]
  | .goalPeriod goalId periodType periodKey =>
    [.equals "goalId" goalId, .equals "periodType" periodType, .equals "periodKey" periodKey]
  | .planVersion goalId version | .proposedPlan goalId version =>
    [.equals "goalId" goalId, .equals "version" version]
  | .researchSession goalId operationId =>
    [.equals "goalId" goalId, .equals "operationId" operationId]

def guards : BaseFilter → Filter
  | .byId _ guards => guards
  | .transcriptChunk _ _ => [differs "sttStatus" (.str "COMPLETED")]
  | .proposedPlan _ _ => [.equals "status" (.str "proposed")]
  | _ => []

def filter (base : BaseFilter) : Filter := base.identity ++ base.guards

def covered : BaseFilter → Bool
  | .transcriptChunk _ _ | .spaceMemory _ _ => false
  | _ => true

end BaseFilter

/-- The fence that `_document_fence` reads is above the token. -/
def newer (token : Int) (doc : Document) : Bool := documentFence (some doc) > token

def Found (collection : Collection) (filter : Filter) (p : Document → Bool) : Prop :=
  ∃ slot doc, collection.doc slot = some doc ∧ filter.accepts doc = true ∧ p doc = true

/-- The call may be rejected for a newer fence: some run of it, with nobody else at the
collection, ends so. -/
def Rejected (collides : Document → Document → Bool) (writeCall : WriteCall)
    (collection : Collection) : Prop :=
  ∃ logicalKey s', Reach (Remote.semantics (Mongo.Performed collides)) Eq writeCall.outcome
    ⟨collection, []⟩ (.ret (.error (.staleOwnership logicalKey "stale_fence"))) s'

end AiBuddy.Queue.MongoFence
