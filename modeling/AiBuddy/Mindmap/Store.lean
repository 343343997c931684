import AiBuddy.Queue.MongoFence.Writes
import AiBuddy.Reminders.Occurrence

/-!
# The stores of mind maps and documents

`services/mindmap/store.py` and `services/document_it/store.py` have one shape. A `Kind` says which
of the two a store is, with the values in which they differ. The candidates for the `_id` of an item
are an argument, and so is what `require_active_lease` comes to. A stored date is a number.
-/

namespace AiBuddy.Mindmap

open Mongo Program Queue.JobLease Queue.MongoFence Reminders

/-- `MindmapStatus` and `DocumentStatus`. -/
inductive Status where
  | queued
  | gathering
  | generating
  | rendering
  | saving
  | ready
  | failed
  deriving DecidableEq

def Status.value : Status → String
  | .queued => "QUEUED"
  | .gathering => "GATHERING"
  | .generating => "GENERATING"
  | .rendering => "RENDERING"
  | .saving => "SAVING"
  | .ready => "READY"
  | .failed => "FAILED"

inductive Kind where
  | mindmap
  | document
  deriving DecidableEq

def Kind.activeStatuses : Kind → List Status
  | .mindmap => [.queued, .gathering, .generating, .saving]
  | .document => [.queued, .gathering, .generating, .rendering, .saving]

def Kind.publicOmit : Kind → List String
  | .mindmap => ["claimedBy"]
  | .document => ["claimedBy", "docxBase64"]

def Kind.contentFields : Kind → List String
  | .mindmap => ["graph"]
  | .document => ["content", "docxBase64"]

def hasStatus (status : Status) (doc : Document) : Bool :=
  (doc.get "status").getD .null = .str status.value

def Kind.isActive (kind : Kind) (doc : Document) : Bool :=
  kind.activeStatuses.any fun status => hasStatus status doc

def truthy : Value → Bool
  | .null => false
  | .bool flag => flag
  | .int _ => true
  | .str text => text ≠ ""
  | .other _ => true

/-- `doc.get(first) or doc.get(second) or ...`. -/
def firstTruthy (doc : Document) (names : List String) : Value :=
  ((names.map fun name => (doc.get name).getD .null).find? truthy).getD .null

def asUtc : Value → Option Instant
  | .int instant => some instant
  | _ => none

def claimStale : Instant := 20 * 60 * second

def isStaleActive (kind : Kind) (doc : Document) (now : Instant) : Bool :=
  kind.isActive doc &&
    match asUtc (firstTruthy doc ["claimedAt", "updatedAt", "createdAt"]) with
    | none => true
    | some parsed => parsed ≤ now - claimStale

inductive ItemCommand : Type → Type 1 where
  | mongo {α : Type} (command : Mongo.Command α) : ItemCommand (Except Mongo.Error α)
  | utcNow : ItemCommand Instant

def ItemCommand.writes {β : Type} : ItemCommand β → Bool
  | .mongo command => command.update?.isSome
  | .utcNow => false

structure State where
  store : Store
  clock : Instant

inductive HandleError where
  | valueError (text : String)
  | nonRetryable (text : String)
  | generateError (text : String)
  | staleOwnership (logicalKey reason : String)
  | leavePending (logicalKey : String)
  | mongo (error : Mongo.Error)
  | other (text : String)
  deriving DecidableEq

abbrev Handling (α : Type) := Raising ItemCommand HandleError α

def mongo {α : Type} (command : Mongo.Command α) : Handling α :=
  ExceptT.mk (issue (.mongo command) >>= fun reply => .ret (reply.mapError .mongo))

def utcNow : Handling Instant := ExceptT.mk (issue .utcNow >>= fun now => .ret (.ok now))

def raiseWrite : WriteError → HandleError
  | .staleOwnership logicalKey reason => .staleOwnership logicalKey reason
  | .mongo error => .mongo error

def toItem {β : Type} : Remote Mongo.Error Mongo.Command β → ItemCommand β
  | .send command => .mongo command

def writing {α : Type} (prog : Writing α) : Handling α :=
  ExceptT.mk (hoist toItem prog.run >>= fun outcome => .ret (outcome.mapError raiseWrite))

def raising {α : Type} (outcome : Except HandleError α) : Handling α := ExceptT.mk (.ret outcome)

/-- `{"_id": {"$in": mongo_id_candidates(item_id)}}`. -/
def idFilter (ids : List Value) : Filter := [.among "_id" ids]

def omit_ (fields : List String) (doc : Document) : Document :=
  fields.foldl (fun doc field => doc.erase field) doc

def get (kind : Kind) (ids : List Value) : Handling (Option Document) := do
  let found ← mongo (.findOne (idFilter ids))
  return found.map (omit_ kind.publicOmit)

inductive ClaimReply where
  | missing
  | exists_ (existing : Document)
  | busy (existing : Document)
  | claimed (updated : Document)
  deriving DecidableEq

/-- The test of `claim`: another job has claimed the item, and is at work on it. -/
def isBusy (kind : Kind) (jobId : String) (now : Instant) (existing : Document) : Bool :=
  let claimedBy := (existing.get "claimedBy").getD .null
  kind.isActive existing && truthy claimedBy && claimedBy ≠ .str jobId &&
    !isStaleActive kind existing now && !hasStatus .queued existing

def claimFilter (kind : Kind) (ids : List Value) : Filter :=
  idFilter ids ++ [.among "status"
    ((.queued :: .failed :: kind.activeStatuses).map fun status => .str status.value)]

def claimUpdate (jobId : String) (claimedAt updatedAt : Value) : Update where
  set :=
    [("status", .str Status.gathering.value), ("stage", .str "gathering_context"),
      ("progress", .int 15), ("message", .str "Gathering notes, tasks, and transcripts"),
      ("claimedBy", .str jobId), ("claimedAt", claimedAt), ("updatedAt", updatedAt),
      ("error", .null)]

def claim (kind : Kind) (ids : List Value) (jobId : String) : Handling ClaimReply := do
  match ← get kind ids with
  | none => return .missing
  | some existing =>
    if hasStatus .ready existing then return .exists_ existing
    let now ← utcNow
    if isBusy kind jobId now existing then return .busy existing
    let claimedAt ← utcNow
    let updatedAt ← utcNow
    match ← mongo (.findOneAndUpdate (claimFilter kind ids)
        (claimUpdate jobId (.int claimedAt) (.int updatedAt)) false true) with
    | none => return .busy existing
    | some updated => return .claimed updated

/-- The arguments of `update_progress`. -/
structure Progress where
  status : Option Status := none
  stage : Option String := none
  progress : Option Int := none
  message : Option String := none
  error : Option String := none
  sourceStats : Option Value := none
  model : Option Value := none
  claimedBy : Option String := none

/-- The fields that `update_progress` sets, with the times at which it asked for the clock. -/
def Progress.updates (progress : Progress) (updatedAt claimedAt : Value) : Document :=
  [("updatedAt", updatedAt)] ++
    (progress.status.map fun status => ("status", .str status.value)).toList ++
    (progress.stage.map fun stage => ("stage", .str stage)).toList ++
    (progress.progress.map fun number => ("progress", .int (max 0 (min 100 number)))).toList ++
    (progress.message.map fun message => ("message", .str message)).toList ++
    (progress.error.map fun error => ("error", .str error)).toList ++
    (progress.sourceStats.map fun stats => ("sourceStats", stats)).toList ++
    (progress.model.map fun model => ("model", model)).toList ++
    (progress.claimedBy.map fun job => [("claimedBy", .str job), ("claimedAt", claimedAt)]).getD []

def updateProgress (ids : List Value) (progress : Progress) : Handling (Option Document) := do
  let updatedAt ← utcNow
  let claimedAt ← if progress.claimedBy.isSome then utcNow else pure updatedAt
  mongo (.findOneAndUpdate (idFilter ids)
    { set := progress.updates (.int updatedAt) (.int claimedAt) } false true)

/-- What `require_active_lease` comes to, and the lease of the worker when the write takes its
token. -/
structure LeaseCheck where
  outcome : Except HandleError Unit
  object : LeaseObject

/-- What `save_ready` stores of an item: the graph or the content, and what comes with it. -/
inductive Finished where
  | mindmap (graph preview sourceStats model : Value)
  | document (content preview docxBase64 docxBytes fileName sourceStats model : Value)

def Finished.message : Finished → String
  | .mindmap .. => "Mind map ready"
  | .document .. => "Document ready"

def Finished.fields : Finished → Document
  | .mindmap graph preview sourceStats model =>
    [("graph", graph), ("preview", preview), ("sourceStats", sourceStats), ("model", model)]
  | .document content preview docxBase64 docxBytes fileName sourceStats model =>
    [("content", content), ("preview", preview), ("docxBase64", docxBase64),
      ("docxBytes", docxBytes), ("fileName", fileName), ("sourceStats", sourceStats),
      ("model", model)]

def saveReady (ids : List Value) (lease : LeaseCheck) (finished : Finished) :
    Handling (Option Document) := do
  raising lease.outcome
  let updatedAt ← utcNow
  writing (fencedFindOneAndUpdate (some lease.object) (idFilter ids)
    { set :=
        [("status", .str Status.ready.value), ("stage", .str "completed"), ("progress", .int 100),
          ("message", .str finished.message), ("error", .null)] ++ finished.fields ++
          [("updatedAt", .int updatedAt)] } false true)

def markFailed (ids : List Value) (lease : LeaseCheck) (error : String) :
    Handling (Option Document) := do
  raising lease.outcome
  let updatedAt ← utcNow
  writing (fencedFindOneAndUpdate (some lease.object) (idFilter ids)
    { set :=
        [("status", .str Status.failed.value), ("stage", .str "failed"), ("progress", .int 100),
          ("message", .str "Generation failed"), ("error", .str (Text.take 500 error)),
          ("updatedAt", .int updatedAt)] } false true)

/-- What a command answers and does. Mongo may take any of the documents it matches, and its
answer may be lost. -/
def performs (collides : Document → Document → Bool) : Semantics ItemCommand State :=
  fun command s reply s' =>
    match command, reply with
    | .mongo command, reply =>
      Performed collides command s.store reply s'.store ∧ s'.clock = s.clock
    | .utcNow, now => now = s.clock ∧ s' = s

def answer {β : Type} (command : ItemCommand β) (s : State) : β × State :=
  match β, command with
  | _, .mongo command =>
    let (reply, store) := command.run (fun _ _ => false) 0 s.store
    (reply, { s with store })
  | _, .utcNow => (s.clock, s)

theorem performs_answer {β : Type} (command : ItemCommand β) (s : State) :
    performs (fun _ _ => false) command s (answer command s).1 (answer command s).2 := by
  cases command with
  | mongo command => exact ⟨⟨0, .answered⟩, rfl⟩
  | utcNow => exact ⟨rfl, rfl⟩

theorem effect_of_performs {collides : Document → Document → Bool} {α : Type}
    {command : Mongo.Command α} {s s' : State} {reply : Except Mongo.Error α}
    (h : performs collides (.mongo command) s reply s') : Effect command s.store s'.store :=
  effect_of_performed h.1

end AiBuddy.Mindmap
