import AiBuddy.Queue.MongoFence.Writes

/-!
# Extraction attempts on a window

`IncrementalMeetingProcessor.extract_window` (`services/conversation/incremental.py:313`) with
the three writes it makes to the window's document (`repository.py:608`), and the reclaim of
stale windows (`repository.py:473`). What the extraction itself comes to is an argument, as is
the outcome of the lease check in `complete_window`. The worker never asks for a recovery.
-/

namespace AiBuddy.Conversation

open Mongo Program Queue.JobLease Queue.MongoFence

inductive WindowProcessingStatus where
  | pending
  | processing
  | completed
  | retrying
  | failed
  deriving DecidableEq

def WindowProcessingStatus.value : WindowProcessingStatus → String
  | pending => "PENDING"
  | processing => "PROCESSING"
  | completed => "COMPLETED"
  | retrying => "RETRYING"
  | failed => "FAILED"

namespace WindowExtraction

def statusPath : String := "status"

def text (status : WindowProcessingStatus) : Value := .str status.value

/-- `{"_id": to_mongo_id(window_id)}`. -/
def windowQuery (windowId : Value) : Filter := [.equals "_id" windowId]

inductive AttemptError where
  | write (error : WriteError)
  | raised (message : String)
  deriving DecidableEq

abbrev Attempting (α : Type) := Raising (Remote Mongo.Error Mongo.Command) AttemptError α

def writing {α : Type} (prog : Writing α) : Attempting α :=
  ExceptT.mk (prog.run >>= fun outcome => .ret (outcome.mapError .write))

def markWindowProcessing (windowId now : Value) : Attempting (Option Document) :=
  send (.write ∘ .mongo) (.findOneAndUpdate
    (windowQuery windowId ++ [.among statusPath [text .pending, text .failed, text .retrying]])
    { set := [(statusPath, text .processing), ("startedAt", now), ("updatedAt", now),
        ("lastError", .null)]
      modify := [("attemptCount", fun
        | some (.int count) => some (.int (count + 1))
        | _ => some (.int 1))] } false true)

/-- What `complete_window` stores of a result. -/
structure WindowResult where
  result : Value
  provider : String
  model : String
  tokenUsage : Value := .other "{}"
  artifactCount : Int := 0
  artifactPersistenceOk : Bool := true
  extractionSkipped : Bool := false
  checkpointKind : Option String := none

/-- `checkpoint_kind or (...)`. -/
def WindowResult.checkpoint (result : WindowResult) : String :=
  let kind := result.checkpointKind.getD ""
  if kind ≠ "" then kind
  else if result.extractionSkipped then "raw_final" else "semantic_checkpoint"

/-- The update of `complete_window`. -/
def WindowResult.update (result : WindowResult) (now : Value) : Update where
  set := [(statusPath, text .completed), ("result", result.result),
    ("provider", .str result.provider), ("model", .str result.model),
    ("tokenUsage", result.tokenUsage), ("artifactCount", .int result.artifactCount),
    ("artifactPersistenceOk", .bool result.artifactPersistenceOk),
    ("extractionSkipped", .bool result.extractionSkipped),
    ("checkpointKind", .str result.checkpoint), ("completedAt", now), ("updatedAt", now)]

def completeWindow (guard : Except WriteError Unit) (object : LeaseObject) (windowId now : Value)
    (result : WindowResult) : Attempting Unit := do
  ExceptT.mk (.ret (guard.mapError .write))
  let _ ← writing (fencedUpdateOne (some object) (windowQuery windowId) (result.update now) false)

def failWindow (windowId now : Value) (error : String) : Attempting Unit := do
  let _ ← send (.write ∘ .mongo) (.updateOne (windowQuery windowId)
    { set := [(statusPath, text .failed), ("lastError", .str (Text.take 1000 error)),
        ("updatedAt", now)] } false)

/-- What the work between `mark_window_processing` and `complete_window` comes to. -/
inductive Work where
  /-- The meeting pipeline extracts at finalization: the window completes without a result. -/
  | deferred (result : WindowResult)
  | raised (message : String)
  /-- `extractionOutcome` is a failure. -/
  | failed (message : String)
  | unpersisted
  /-- A result, and what the debug trace after it raises. -/
  | extracted (result : WindowResult) (traceError : Option String)

/-- One call of `extract_window` under a lease. -/
structure Attempt where
  windowId : Value
  /-- The lease as it is known when the window is completed. -/
  object : LeaseObject
  guard : Except WriteError Unit
  conversationEnded : Bool
  work : Work
  mongoText : Mongo.Error → String
  now : Value

namespace Attempt

variable (attempt : Attempt)

def errorText : AttemptError → String
  | .write (.staleOwnership _ reason) => reason
  | .write (.mongo error) => attempt.mongoText error
  | .raised message => message

def body : Attempting Unit := do
  match attempt.work with
  | .deferred result =>
    completeWindow attempt.guard attempt.object attempt.windowId attempt.now result
  | .raised message => throw (.raised message)
  | .failed message =>
    failWindow attempt.windowId attempt.now message
    throw (.raised message)
  | .unpersisted => failWindow attempt.windowId attempt.now "artifact persistence failed"
  | .extracted result traceError =>
    completeWindow attempt.guard attempt.object attempt.windowId attempt.now result
    match traceError with
    | some message => throw (.raised message)
    | none => return ()

def extractWindow : Attempting Unit := do
  let existing ← send (.write ∘ .mongo) (.findOne (windowQuery attempt.windowId))
  if existing.isSome && attempt.conversationEnded then
    return ()
  else
    match ← markWindowProcessing attempt.windowId attempt.now with
    | none =>
      -- completed by another attempt, or taken by one
      let _ ← send (.write ∘ .mongo) (.findOne (windowQuery attempt.windowId))
    | some _ =>
      match ← Program.attempt attempt.body with
      | .ok _ => return ()
      | .error error =>
        failWindow attempt.windowId attempt.now (attempt.errorText error)
        throw error

def token? : Option Int := Text.int? attempt.object.lease.token

end Attempt

/-- `{"updatedAt": {"$lte": stale_before}}`, for any order of times. -/
def staleClause (stale : Option Value → Bool) : Clause where
  key := "updatedAt"
  holds doc := stale (doc.get "updatedAt")
  fixes := []

/-- The loop of `reclaim_stale_processing_windows`, over the documents that
the cursor has found. -/
def reclaimStaleProcessingWindows (stale : Option Value → Bool) (now : Value) :
    List Value → Attempting Unit
  | [] => return ()
  | windowId :: rest => do
    let _ ← send (.write ∘ .mongo) (.findOneAndUpdate
      (windowQuery windowId ++ [.equals statusPath (text .processing), staleClause stale])
      { set := [(statusPath, text .pending), ("queuedAt", .null),
          ("lastError", .str "stale processing reclaimed"), ("updatedAt", now)] } false true)
    reclaimStaleProcessingWindows stale now rest

/-- What may run at any time, with the token of the lease that it runs under. -/
inductive WindowTask where
  | attempt (attempt : Attempt)
  | reclaim (stale : Option Value → Bool) (now : Value) (windowIds : List Value)

def WindowTask.token? : WindowTask → Option Int
  | .attempt extraction => extraction.token?
  | .reclaim .. => none

abbrev WindowCommands := Labelled (Option Int) (Remote Mongo.Error Mongo.Command)

def WindowTask.program (task : WindowTask) : Program WindowCommands Unit :=
  labelled task.token? <|
    match task with
    | .attempt extraction => extraction.extractWindow.run >>= fun _ => .ret ()
    | .reclaim stale now windowIds =>
      (reclaimStaleProcessingWindows stale now windowIds).run >>= fun _ => .ret ()

def WindowTasks (_ : Journaled (Option Int) Store) (prog : Program WindowCommands Unit) : Prop :=
  ∃ task : WindowTask, prog = task.program

def protectedFields : List String := [statusPath, "result", "lastError"]

def windowStatus (doc : Document) : Value := (doc.get statusPath).getD .null

structure OtherMoves (s s' : Store) : Prop where
  grows : s.collection.slots.length ≤ s'.collection.slots.length
  fields : ∀ slot doc', slot < s.collection.slots.length → s'.collection.doc slot = some doc' →
    ∃ doc, s.collection.doc slot = some doc ∧ doc'.get fenceField = doc.get fenceField ∧
      ∀ path ∈ protectedFields, doc'.get path = doc.get path
  landed : s'.landed = s.landed

def sparesCompleted {α : Type} (command : Mongo.Command α) (s : Store) : Bool :=
  match command.update? with
  | some (filter, update, _) =>
    update.set.get statusPath ≠ some (text .failed) ||
      (s.collection.matching filter).all fun found => windowStatus found.2 ≠ text .completed
  | none => true

/-- A move of a run. `allowed` restricts the commands to those that meet a condition. -/
abbrev WindowStep (collides : Document → Document → Bool)
    (allowed : ∀ {α : Type}, Mongo.Command α → Store → Prop) :
    Pool WindowCommands Unit (Journaled (Option Int) Store) →
      Pool WindowCommands Unit (Journaled (Option Int) Store) → Prop :=
  Pool.Step
    (Labelled.semantics (Remote.semantics fun command s reply s' =>
      allowed command s ∧ Mongo.Performed collides command s reply s'))
    WindowTasks (Journaled.Outside OtherMoves)

abbrev WindowRun (collides : Document → Document → Bool)
    (allowed : ∀ {α : Type}, Mongo.Command α → Store → Prop) (collection : Collection) :
    Pool WindowCommands Unit (Journaled (Option Int) Store) → Prop :=
  Relation.ReflTransGen (WindowStep collides allowed) ⟨[], ⟨⟨collection, []⟩, []⟩⟩

def Completes (event : Event (Option Int) Store) (slot : Nat) : Prop :=
  ∃ doc update, event.after.landed = ⟨slot, some doc, update⟩ :: event.before.landed ∧
    update.set.get statusPath = some (text .completed)

/-- A status, result or error of the window in the slot is another one after the command. -/
def Changes (event : Event (Option Int) Store) (slot : Nat) : Prop :=
  ∃ doc doc' path, event.before.collection.doc slot = some doc ∧
    event.after.collection.doc slot = some doc' ∧ path ∈ protectedFields ∧
    doc'.get path ≠ doc.get path

/-- No command of an attempt changes a window that an attempt with a newer token has completed
before. -/
def NoStaleChange (events : List (Event (Option Int) Store)) : Prop :=
  events.Pairwise fun event earlier => ∀ slot token token', event.label = some token →
    earlier.label = some token' → token < token' → Completes earlier slot → ¬ Changes event slot

end WindowExtraction

end AiBuddy.Conversation
