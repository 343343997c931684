import AiBuddy.Queue.MongoFence.Writes

/-!
# The status of a conversation

`ConversationStatus` with its transitions (`services/conversation/models.py:37`), and the two
operations of the repository that write it (`repository.py:54`, `:919`). Both first ask
whether the worker still has its lease, by a call to Redis whose outcome is an argument here.
The copy of the status into `meeting_sessions` is left out.
-/

namespace AiBuddy.Conversation

open Mongo Program Queue.JobLease Queue.MongoFence

/-- `ConversationStatus`. PARTIAL is `partially`, as Lean has the other word. -/
inductive ConversationStatus where
  | recording
  | stopRequested
  | waitingForTranscripts
  | finalizing
  | readyForProcessing
  | processing
  | validating
  | completed
  | partially
  | retryPending
  | failed
deriving DecidableEq

namespace ConversationStatus

def value : ConversationStatus → String
  | recording => "RECORDING"
  | stopRequested => "STOP_REQUESTED"
  | waitingForTranscripts => "WAITING_FOR_TRANSCRIPTS"
  | finalizing => "FINALIZING"
  | readyForProcessing => "READY_FOR_PROCESSING"
  | processing => "PROCESSING"
  | validating => "VALIDATING"
  | completed => "COMPLETED"
  | partially => "PARTIAL"
  | retryPending => "RETRY_PENDING"
  | failed => "FAILED"

/-- `ConversationStatus(value)`, or none where that raises. -/
def ofValue? : String → Option ConversationStatus
  | "RECORDING" => some recording
  | "STOP_REQUESTED" => some stopRequested
  | "WAITING_FOR_TRANSCRIPTS" => some waitingForTranscripts
  | "FINALIZING" => some finalizing
  | "READY_FOR_PROCESSING" => some readyForProcessing
  | "PROCESSING" => some processing
  | "VALIDATING" => some validating
  | "COMPLETED" => some completed
  | "PARTIAL" => some partially
  | "RETRY_PENDING" => some retryPending
  | "FAILED" => some failed
  | _ => none

@[simp] theorem ofValue?_value (status : ConversationStatus) :
    ofValue? status.value = some status := by
  cases status <;> rfl

end ConversationStatus

def validTransitions : ConversationStatus → List ConversationStatus
  | .recording => [.stopRequested, .waitingForTranscripts, .failed]
  | .stopRequested => [.waitingForTranscripts, .finalizing, .readyForProcessing, .partially,
      .retryPending, .failed]
  | .waitingForTranscripts => [.finalizing, .readyForProcessing, .processing, .partially,
      .retryPending, .failed]
  | .readyForProcessing => [.processing, .retryPending, .failed]
  | .processing => [.validating, .finalizing, .retryPending, .failed]
  | .finalizing => [.waitingForTranscripts, .readyForProcessing, .processing, .partially,
      .completed, .failed]
  | .validating => [.completed, .partially, .retryPending, .failed]
  | .partially => [.processing, .retryPending, .failed, .completed]
  | .retryPending => [.waitingForTranscripts, .readyForProcessing, .processing, .failed]
  | .failed => [.retryPending]
  | .completed => []

def Edge (current target : ConversationStatus) : Prop :=
  current = target ∨ target ∈ validTransitions current

instance (current target : ConversationStatus) : Decidable (Edge current target) :=
  inferInstanceAs (Decidable (_ ∨ _))

def statusField : String := "status"

def statusOf (doc : Document) : Option ConversationStatus :=
  match doc.get statusField with
  | some (.str text) => ConversationStatus.ofValue? text
  | _ => none

/-- `ConversationDocument.model_validate(data)`, as far as the status goes: a missing one is
RECORDING, and none stands for the validation error. -/
def validatedStatus (doc : Document) : Option ConversationStatus :=
  match doc.get statusField with
  | none => some .recording
  | some _ => statusOf doc

inductive StatusError where
  | write (error : WriteError)
  | valueError (message : String)
  | validationError
  deriving DecidableEq

abbrev Changing (α : Type) := Raising (Remote Mongo.Error Mongo.Command) StatusError α

def writing {α : Type} (prog : Writing α) : Changing α :=
  ExceptT.mk (prog.run >>= fun outcome => .ret (outcome.mapError .write))

/-- `await self._guard_lease()`, with its outcome. -/
def guardLease (outcome : Except WriteError Unit) : Changing Unit :=
  ExceptT.mk (.ret (outcome.mapError .write))

def assertValidTransition (current target : ConversationStatus) : Changing Unit :=
  if Edge current target then pure ()
  else throw (.valueError ("Invalid conversation transition: ConversationStatus." ++
    current.value ++ " -> ConversationStatus." ++ target.value))

def idQuery (conversationId : Value) : Filter := [.equals "_id" conversationId]

def notEquals (path : String) (value : Value) : Clause where
  key := path
  holds doc := (doc.get path).getD .null ≠ value
  fixes := []

/-- One call of `transition`: no caller passes a status among the updates. -/
structure TransitionCall where
  guard : Except WriteError Unit
  object : Option LeaseObject
  conversationId : Value
  conversationText : String
  target : ConversationStatus
  updates : Document
  now : Value
  status_free : updates.get statusField = none

def TransitionCall.updateDoc (request : TransitionCall) : Document :=
  let merged := Update.assign request.updates
    [(statusField, .str request.target.value), ("updatedAt", request.now)]
  if request.target = .completed ∨ request.target = .partially then
    if (merged.get "processedAt").isSome then merged else merged.put "processedAt" request.now
  else merged

def transition (request : TransitionCall) : Changing Document := do
  guardLease request.guard
  match ← send (.write ∘ .mongo) (.findOne (idQuery request.conversationId)) with
  | none => throw (.valueError ("Conversation not found: " ++ request.conversationText))
  | some data =>
    match validatedStatus data with
    | none => throw .validationError
    | some current =>
      assertValidTransition current request.target
      let result ← writing (fencedFindOneAndUpdate request.object
        (idQuery request.conversationId ++ [.equals statusField (.str current.value)])
        { set := request.updateDoc } false true)
      match result with
      | none => throw (.valueError ("Conversation transition conflict: " ++
          request.conversationText))
      | some saved =>
        if (validatedStatus saved).isSome then return saved else throw .validationError

structure FailureCall where
  guard : Except WriteError Unit
  object : Option LeaseObject
  conversationId : Value
  error : String
  now : Value

def markConversationFailed (request : FailureCall) : Changing UpdateResult := do
  guardLease request.guard
  writing (fencedUpdateOne request.object
    (idQuery request.conversationId ++
      [notEquals statusField (.str ConversationStatus.completed.value)])
    { set := [(statusField, .str ConversationStatus.failed.value),
        ("lastError", .str (Text.take 1000 request.error)), ("updatedAt", request.now)] } false)

inductive StatusCall where
  | transition (request : TransitionCall)
  | failure (request : FailureCall)

def StatusCall.program : StatusCall → Program (Remote Mongo.Error Mongo.Command) Unit
  | .transition request => (Conversation.transition request).run >>= fun _ => .ret ()
  | .failure request => (markConversationFailed request).run >>= fun _ => .ret ()

def StatusCalls (_ : Store) (prog : Program (Remote Mongo.Error Mongo.Command) Unit) : Prop :=
  ∃ call : StatusCall, prog = call.program

/-- What else happens to the conversations: they are created and deleted, and other code updates
fields but the status. -/
structure OtherFields (s s' : Store) : Prop where
  grows : s.collection.slots.length ≤ s'.collection.slots.length
  statuses : ∀ slot doc', slot < s.collection.slots.length → s'.collection.doc slot = some doc' →
    ∃ doc, s.collection.doc slot = some doc ∧ doc'.get statusField = doc.get statusField
  landed : s'.landed = s.landed

/-- One move of a run: a call starts or issues a command, or the rest of the system moves. -/
abbrev StatusStep (collides : Document → Document → Bool) :
    Pool (Remote Mongo.Error Mongo.Command) Unit Store →
      Pool (Remote Mongo.Error Mongo.Command) Unit Store → Prop :=
  Pool.Step (Remote.semantics fun command s reply s' => Mongo.Performed collides command s reply s')
    StatusCalls OtherFields

abbrev StatusRun (collides : Document → Document → Bool) (collection : Collection) :
    Pool (Remote Mongo.Error Mongo.Command) Unit Store → Prop :=
  Relation.ReflTransGen (StatusStep collides) ⟨[], ⟨collection, []⟩⟩

def newStatus (landed : Landed) : Option ConversationStatus := statusOf landed.update.set

def observedStatus (landed : Landed) : Option ConversationStatus := landed.before.bind statusOf

end AiBuddy.Conversation
