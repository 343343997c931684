import AiBuddy.Conversation.Artifacts
import AiBuddy.Queue.MongoFence.Writes

/-!
# Publishing tasks and notes

`_publish_tasks` and `_publish_notes` (`services/conversation/repository.py:1022`) with the
fingerprints of `services/conversation/fingerprints.py`. What `publish_outputs` writes into other
collections afterwards is left out. Ids of the run are as `to_mongo_id` converts them, and the clock
gives one value for a publication.
-/

namespace AiBuddy.Conversation

open Mongo Program
open Queue.JobLease Queue.MongoFence

/-- What is computed outside: SHA-256, the id that the first 24 digits of SHA-1 make, and
`to_mongo_id` of a text. -/
structure PublishHost where
  sha256 : String → String
  objectId : String → Value
  toMongoId : String → Value

def normalizeFingerprintText (value : String) : String :=
  Text.collapseSpaces (Text.lower (Text.strip value))

def evidenceRange (evidence : List EvidenceSpan) : String :=
  match (evidence.map EvidenceSpan.sequenceStart).min?,
      (evidence.map EvidenceSpan.sequenceEnd).max? with
  | some start, some stop => start.repr ++ ":" ++ stop.repr
  | _, _ => ""

def stableHash (host : PublishHost) (parts : List String) : String :=
  host.sha256 ("|".intercalate (parts.map normalizeFingerprintText))

def firstText (first second : Option String) : String :=
  match first.filter (· ≠ "") with
  | some text => text
  | none => second.getD ""

def taskFingerprint (host : PublishHost) (spaceId : String) (task : ExtractedTask) : String :=
  stableHash host
    [spaceId, task.title, Text.take 512 task.body, task.ownerText.getD "",
      firstText task.dueDateResolved task.dueDateText, evidenceRange task.evidence]

def noteFingerprint (host : PublishHost) (spaceId : String) (note : ExtractedNote) : String :=
  stableHash host [spaceId, note.title, Text.take 512 note.body, evidenceRange note.evidence]

def Operation.text : Operation → String
  | .create => "CREATE"
  | .update => "UPDATE"
  | .complete => "COMPLETE"
  | .cancel => "CANCEL"
  | .noAction => "NO_ACTION"
  | .needsConfirmation => "NEEDS_CONFIRMATION"

/-- A staged task; `others` are the fields of `model_dump()` that publishing does not read, with the
ids of the evidence. No field of the model is named "_id". -/
structure StagedTask where
  task : ExtractedTask
  others : Document := []
  noId : others.get "_id" = none := by rfl

structure StagedNote where
  note : ExtractedNote
  sourceConversationId : String
  others : Document := []
  noId : others.get "_id" = none := by rfl

def optionalText (text : Option String) : Value :=
  match text with
  | some text => .str text
  | none => .null

def StagedTask.dump (staged : StagedTask) : Document :=
  [("title", .str staged.task.title), ("body", .str staged.task.body),
    ("operation", .str staged.task.operation.text),
    ("existingTaskId", optionalText staged.task.existingTaskId),
    ("needsConfirmation", .bool staged.task.needsConfirmation),
    ("sourceConversationId", .str staged.task.sourceConversationId),
    ("fingerprint", optionalText staged.task.fingerprint)] ++ staged.others

def StagedNote.dump (staged : StagedNote) : Document :=
  [("title", .str staged.note.title), ("body", .str staged.note.body),
    ("sourceConversationId", .str staged.sourceConversationId),
    ("fingerprint", optionalText staged.note.fingerprint)] ++ staged.others

/-- `ExtractionRunDocument`, `models.py:475`. `spaceId` is null where `has_space_id` fails. -/
structure ExtractionRun where
  id : String
  conversationId : Value
  userId : Value
  spaceId : Value := .null
  startedAt : Value := .null
  stagedTasks : List StagedTask := []
  stagedNotes : List StagedNote := []
  now : Value := .null

def setDefault (path : String) (value : Value) (doc : Document) : Document :=
  if (doc.get path).isSome then doc else doc.put path value

/-- The fields that tasks and notes share, `repository.py:1028`. -/
def ExtractionRun.document (run : ExtractionRun) (sourceConversationId : Value) (dump : Document) :
    Document :=
  let doc := dump.put "conversationId" run.conversationId
  let doc := doc.put "sourceConversationId" sourceConversationId
  let doc := doc.put "userId" run.userId
  let doc := doc.put "spaceId" run.spaceId
  let doc := doc.put "updatedAt" run.now
  let doc := setDefault "createdAt" run.startedAt doc
  let doc := setDefault "origin" (.str "ai") doc
  let doc := setDefault "source" (.str "meeting") doc
  doc.put "deletedAt" .null

def taskStatusForOperation (operation : Operation) (needsConfirmation : Bool) : String :=
  if needsConfirmation || operation = .needsConfirmation then "needs_confirmation"
  else
    match operation with
    | .complete => "completed"
    | .cancel => "cancelled"
    | _ => "pending"

def taskDocument (host : PublishHost) (run : ExtractionRun) (staged : StagedTask) : Document :=
  (run.document (host.toMongoId staged.task.sourceConversationId) staged.dump).put "status"
    (.str (taskStatusForOperation staged.task.operation staged.task.needsConfirmation))

def noteDocument (host : PublishHost) (run : ExtractionRun) (staged : StagedNote) : Document :=
  run.document (host.toMongoId staged.sourceConversationId) staged.dump

/-- `str(item.get(path) or "")`, for texts. -/
def textAt (doc : Document) (path : String) : String :=
  match doc.get path with
  | some (.str text) => text
  | _ => ""

def publishedObjectId (host : PublishHost) (kind : String) (run : ExtractionRun) (doc : Document)
    (index : Nat) : Value :=
  host.objectId ("|".intercalate
    [run.id, kind, (index : Int).repr, textAt doc "fingerprint", textAt doc "title",
      textAt doc "body"])

def without (paths : List String) (doc : Document) : Document :=
  doc.filter fun field => field.1 ∉ paths

def itemFilter (fingerprint : Option String) (id : Value) : Filter :=
  match fingerprint.filter (· ≠ "") with
  | some fingerprint => [.equals "fingerprint" (.str fingerprint)]
  | none => [.equals "_id" id]

/-- The update that creates an item, `repository.py:1066`. -/
def itemUpdate (run : ExtractionRun) (id : Value) (doc : Document) : Update where
  set := without ["_id", "createdAt"] doc
  setOnInsert := [("_id", id), ("createdAt", (doc.get "createdAt").getD run.now)]

def existingTaskId (task : ExtractedTask) : Option String :=
  (task.existingTaskId.map Text.strip).filter (· ≠ "")

/-- The filter of an existing task, `repository.py:1046`. -/
def existingFilter (host : PublishHost) (run : ExtractionRun) (existing : String) : Filter :=
  [.equals "_id" (host.toMongoId existing), .equals "userId" run.userId,
    if run.spaceId = .null then .or [[.equals "spaceId" .null], [.missing "spaceId"]]
    else .equals "spaceId" run.spaceId]

/-- `ids.append(result["_id"])`, where there is a result. -/
def appendId (ids : List Value) (result : Option Document) : List Value :=
  match result with
  | some doc => ids ++ [(doc.get "_id").getD .null]
  | none => ids

variable (object : Option LeaseObject) (host : PublishHost) (run : ExtractionRun)

/-- The body of the loop of `_publish_tasks(run)`. -/
def publishTask (ids : List Value) (staged : StagedTask) : Writing (List Value) := do
  if staged.task.operation = .noAction then return ids
  else
    let doc := taskDocument host run staged
    match existingTaskId staged.task with
    | some existing =>
      let result ← fencedFindOneAndUpdate object (existingFilter host run existing)
        { set := without ["createdAt"] doc } false true
      return appendId ids result
    | none =>
      let id := publishedObjectId host "task" run doc ids.length
      let result ← fencedFindOneAndUpdate object (itemFilter staged.task.fingerprint id)
        (itemUpdate run id doc) true true
      return appendId ids result

/-- The body of the loop of `_publish_notes(run)`. -/
def publishNote (ids : List Value) (staged : StagedNote) : Writing (List Value) := do
  let doc := noteDocument host run staged
  let id := publishedObjectId host "note" run doc ids.length
  let result ← fencedFindOneAndUpdate object (itemFilter staged.note.fingerprint id)
    (itemUpdate run id doc) true true
  return appendId ids result

def publishEach {α : Type} (publish : List Value → α → Writing (List Value)) :
    List Value → List α → Writing (List Value)
  | ids, [] => return ids
  | ids, item :: items => do
    let ids ← publish ids item
    publishEach publish ids items

def publishTasks : Writing (List Value) :=
  publishEach (publishTask object host run) [] run.stagedTasks

def publishNotes : Writing (List Value) :=
  publishEach (publishNote object host run) [] run.stagedNotes

/-- The collections `tasks` and `notes`. -/
inductive Kind where
  | task
  | note
  deriving DecidableEq

structure Database where
  tasks : Store
  notes : Store

def Database.store (database : Database) : Kind → Store
  | .task => database.tasks
  | .note => database.notes

abbrev Publishing (α : Type) :=
  Raising (Labelled Kind (Remote Mongo.Error Mongo.Command)) WriteError α

def into (kind : Kind) {α : Type} (prog : Writing α) : Publishing α :=
  ExceptT.mk (prog.run.labelled kind)

/-- `publish_outputs(run, ...)` up to the notes. -/
def publishOutputs : Publishing (List Value × List Value) := do
  let taskIds ← into .task (publishTasks object host run)
  let noteIds ← into .note (publishNotes object host run)
  return (taskIds, noteIds)

def share (path : String) (doc doc' : Document) : Bool :=
  match doc.get path, doc'.get path with
  | some value, some value' => value = value'
  | _, _ => false

/-- The unique indexes on `_id` and, sparse, on `fingerprint` (`services/db/mongo.py:200`). -/
def collides (doc doc' : Document) : Bool := share "_id" doc doc' || share "fingerprint" doc doc'

def onDatabase : Semantics (Labelled Kind (Remote Mongo.Error Mongo.Command)) Database :=
  fun command s reply s' =>
    Remote.semantics (Performed collides) command.command (s.store command.label) reply
        (s'.store command.label) ∧
      ∀ kind, kind ≠ command.label → s'.store kind = s.store kind

structure Indexed (store : Store) : Prop where
  id : ∀ slot doc, store.collection.doc slot = some doc → (doc.get "_id").isSome
  unique : ∀ slot other doc doc', store.collection.doc slot = some doc →
    store.collection.doc other = some doc' → slot ≠ other → collides doc doc' = false

def Foreign (userId : Value) (doc : Document) : Prop :=
  ∃ value, doc.get "userId" = some value ∧ value ≠ userId

def OthersKept (userId : Value) (start s : Database) : Prop :=
  ∀ kind slot doc, (start.store kind).collection.doc slot = some doc → Foreign userId doc →
    (s.store kind).collection.doc slot = some doc

def Owns (userId : Value) (store : Store) (id : Value) : Prop :=
  ∃ slot doc, store.collection.doc slot = some doc ∧ doc.get "_id" = some id ∧
    doc.get "userId" = some userId

variable {run}

def StagedTask.creates (staged : StagedTask) : Bool :=
  staged.task.operation ≠ .noAction && (existingTaskId staged.task).isNone

/-- What publishing returns: documents of the user, one for each item that creates one at least. -/
structure Created (run : ExtractionRun) (s : Database) (ids : List Value × List Value) : Prop where
  tasks : ∀ id ∈ ids.1, Owns run.userId s.tasks id
  notes : ∀ id ∈ ids.2, Owns run.userId s.notes id
  taskCount : (run.stagedTasks.filter StagedTask.creates).length ≤ ids.1.length
  noteCount : ids.2.length = run.stagedNotes.length

def ExtractionRun.fingerprints (run : ExtractionRun) : Kind → List (Option String)
  | .task => (run.stagedTasks.filter StagedTask.creates).map fun staged => staged.task.fingerprint
  | .note => run.stagedNotes.map fun staged => staged.note.fingerprint

def ExtractionRun.Fingerprinted (run : ExtractionRun) : Prop :=
  ∀ kind, ∀ fingerprint ∈ run.fingerprints kind, ∃ text, fingerprint = some text ∧ text ≠ ""

def Untaken (run : ExtractionRun) (start : Database) : Prop :=
  ∀ kind slot doc, (start.store kind).collection.doc slot = some doc → Foreign run.userId doc →
    ∀ text, some text ∈ run.fingerprints kind → doc.get "fingerprint" ≠ some (.str text)

def Isolated (run : ExtractionRun) (start s : Database) (ids : List Value × List Value) : Prop :=
  OthersKept run.userId start s ∧ Created run s ids

end AiBuddy.Conversation
