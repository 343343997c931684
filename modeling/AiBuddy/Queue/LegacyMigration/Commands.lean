import AiBuddy.Misc.Lua
import AiBuddy.Queue.Envelope
import AiBuddy.Misc.Program
import AiBuddy.Redis.Streams

/-!
# Items and commands of the migration

What `services/queue/legacy_list_migration.py` reads from a list item or a stream
entry, and the events that `services/queue/redis_queue.py` makes of a job. The
JSON codec is a parameter.
-/

namespace AiBuddy.Queue.LegacyMigration

inductive Kind where
  | speech
  | vector
  deriving DecidableEq

/-- `SPEECH_EVENT_TYPE` and `VECTOR_EVENT_TYPE`. -/
def Kind.eventType : Kind → String
  | .speech => "speech.transcribe.requested"
  | .vector => "vector.index.requested"

/-- What `json.loads` makes of a text: the fields of a dictionary and, if its `payload` is one
too, the fields of that. -/
inductive Loaded where
  | notJson
  | notDict
  | dict (fields : Payload) (payload : Option Payload)

/-- `json.loads`, `json.dumps` and the JSON form of an envelope. -/
structure Codec where
  loads : String → Loaded
  dumps : Payload → String
  validate : String → Option EventEnvelope
  dump : EventEnvelope → String

/-- A `MigrationPoison` with its message, or a value. -/
abbrev Parsed := Except String

/-- `data["payload"]` where the item is a whole event of this kind, else the item. -/
def unwrap (kind : Kind) (fields : Payload) (payload : Option Payload) : Payload :=
  match payload with
  | some payload => if fields.get "eventType" = .str kind.eventType then payload else fields
  | none => fields

/-- `str(data.get(first) or data.get(second) or "").strip()`. -/
def strippedId (data : Payload) (first second : String) : String :=
  Text.strip (((data.get first).or (data.get second)).or (.str "")).pyStr

def parseLegacySpeechItem (codec : Codec) (raw : String) : Parsed Payload :=
  match codec.loads (Text.strip raw) with
  | .notJson => .error "speech backlog item is not json"
  | .notDict => .error "speech backlog item is not a job"
  | .dict fields payload =>
    let data := unwrap .speech fields payload
    if strippedId data "job_id" "jobId" = "" then .error "speech backlog item is missing job_id"
    else .ok data

def bareJobId (text : String) : Parsed String :=
  if 200 < text.length then .error "completed speech backlog item is not a job id" else .ok text

def parseLegacyCompletedItem (codec : Codec) (raw : String) : Parsed String :=
  let text := Text.strip raw
  if text = "" then .error "completed speech backlog item is empty"
  else if text.toList.head? = some '{' then
    match codec.loads text with
    | .notJson => .error "completed speech backlog item is not a job id"
    | .notDict => bareJobId text
    | .dict fields payload =>
      let jobId := strippedId (unwrap .vector fields payload) "jobId" "job_id"
      if jobId = "" then .error "completed speech backlog item is missing job_id" else .ok jobId
  else bareJobId text

/-- The job id and the list form that `restore_migrating_list` gives an item. -/
def restoredForm (codec : Codec) (kind : Kind) (raw : String) : Parsed (String × String) :=
  match kind with
  | .speech => do
    let job ← parseLegacySpeechItem codec raw
    return (((job.get "job_id").or (job.get "jobId")).pyStr, codec.dumps job)
  | .vector => do
    let jobId ← parseLegacyCompletedItem codec raw
    return (jobId, jobId)

/-- What a new envelope brings with it: a `uuid4` and the time. -/
structure Stamp where
  eventId : String
  createdAt : String

/-- The validator of an envelope's `spaceId`. -/
def stringifySpaceId (spaceId : String) : String :=
  let text := Text.strip spaceId
  if text = "" ∨ Text.lower text ∈ ["none", "null", "undefined"] then "" else text

def textOr (left right : PyVal) (default : String) : String :=
    ((left.or right).or (.str default)).pyStr

/-- `speech_job_event`. A job without an id is a `ValueError`. -/
def speechJobEvent (job : Payload) (stamp : Stamp) : Option EventEnvelope :=
  let jobId := strippedId job "job_id" "jobId"
  if jobId = "" then none
  else
    let payload : Payload := (job.set "jobId" (.str jobId)).set "job_id" (.str jobId)
    let payload : Payload := payload.filter (fun pair => pair.2 ≠ .none)
    let conversation :=
      textOr (payload.get "conversation_id") (payload.get "conversationId") jobId
    some
      { eventId := stamp.eventId
        createdAt := stamp.createdAt
        eventType := Kind.speech.eventType
        correlationId := textOr (payload.get "request_id") (payload.get "requestId") conversation
        userId := textOr (payload.get "user_id") (payload.get "userId") "unknown"
        spaceId := stringifySpaceId (textOr (payload.get "space_id") (payload.get "spaceId") "")
        conversationId := conversation
        payload := payload }

def vectorJobEvent (jobId : String) (source : Payload) (stamp : Stamp) : Option EventEnvelope :=
  let jobId := Text.strip jobId
  if jobId = "" then none
  else
    some
      { eventId := stamp.eventId
        createdAt := stamp.createdAt
        eventType := Kind.vector.eventType
        correlationId := jobId
        userId := textOr (source.get "user_id") (source.get "userId") "unknown"
        spaceId := stringifySpaceId (textOr (source.get "space_id") (source.get "spaceId") "")
        conversationId :=
          textOr (source.get "conversation_id") (source.get "conversationId") jobId
        payload := [("jobId", .str jobId), ("job_id", .str jobId)] }

def IsEventOf (codec : Codec) (kind : Kind) (raw text : String) : Prop :=
  match kind with
  | .speech => ∃ job stamp event, parseLegacySpeechItem codec raw = .ok job ∧
      speechJobEvent job stamp = some event ∧ text = codec.dump event
  | .vector => ∃ jobId source stamp event, parseLegacyCompletedItem codec raw = .ok jobId ∧
      vectorJobEvent jobId source stamp = some event ∧ text = codec.dump event

/-- `_speech_list_item` and `_completed_list_item`. The outer
`none` is an envelope that does not validate. -/
def toListItem (codec : Codec) (kind : Kind) (eventJson : String) : Option (Parsed String) :=
  (codec.validate eventJson).map fun event =>
    match kind with
    | .speech =>
      if event.eventType ≠ Kind.speech.eventType then .error "stream entry is not a speech job"
      else .ok (codec.dumps event.payload)
    | .vector =>
      if event.eventType ≠ Kind.vector.eventType then .error "stream entry is not a vector job"
      else .ok ((event.payload.get "jobId").or (event.payload.get "job_id")).pyStr

/-- `_job_id_from_export_item`. `none` is a `JSONDecodeError`. -/
def jobIdFromExportItem (codec : Codec) (payload : String) : Option String :=
  let text := Text.strip payload
  if text.toList.head? = some '{' then
    match codec.loads text with
    | .notJson => none
    | .notDict => some text
    | .dict fields _ => some (strippedId fields "jobId" "job_id")
  else some text

end AiBuddy.Queue.LegacyMigration

/-!
## Redis commands of the migration

The commands and scripts that `migrate_list` and `rollback_speech_vector_to_lists`
send. The world is Redis with a record of what went onto a stream, what was pushed
back to a list and which stream entries were settled.
-/

namespace AiBuddy.Queue.LegacyMigration

open Redis

/-- The three lists of one queue: `SPEECH_QUEUE` or `COMPLETED_SPEECH_QUEUE` and the two whose
names are made from it, `legacy_list_migration.py:98`. -/
structure QueueLists where
  name : String

def QueueLists.source (lists : QueueLists) : Key := .named lists.name
def QueueLists.processing (lists : QueueLists) : Key := .named (lists.name ++ ":migrating")
def QueueLists.failed (lists : QueueLists) : Key := .named (lists.name ++ ":migration_failed")

/-- The transport of `redis_queue.py`: `SPEECH_VECTOR_QUEUE_TRANSPORT`. -/
inductive Transport where
  | list
  | stream
  deriving DecidableEq

/-- `mode` of `guarded_queue_write`. -/
def Transport.text : Transport → String
  | .list => "list"
  | .stream => "stream"

/-- `_PUBLISH_GUARD_LUA`. -/
def publishGuard (queue : Key) (mode payload : String) : Script Key String := do
  if (← «exists» .exportLock) = 1 then .fail (.reply "speech-vector-export-locked")
  else if mode = "list" then
    let _ ← lpush queue payload
    return "list"
  else
    let id ← xadd queue [("event", payload)]
    return idText id

/-- `_ENQUEUE_ONCE_LUA`. -/
def enqueueOnce (destination : Key) (jobId payload : String) : Script Key Int := do
  if (← Redis.sismember .exportLedger jobId) = 1 then return 0
  else
    let _ ← Redis.lpush destination payload
    let _ ← Redis.sadd .exportLedger jobId
    return 1

inductive Command : Type → Type where
  | llen (key : Key) : Command Int
  | lindexLast (key : Key) : Command (Option String)
  | lmove (source destination : Key) : Command (Option String)
  | lrem (key : Key) (item : String) : Command Int
  | lpush (key : Key) (item : String) : Command Int
  | hgetall (key : Key) : Command Fields
  | guardedQueueWrite (queue : Key) (mode payload : String) : Command String
  | enqueueOnce (destination : Key) (jobId payload : String) : Command Int
  | sismember (key : Key) (member : String) : Command Int
  | set (key : Key) (text : String) : Command Unit
  | del (key : Key) : Command Int
  | xgroupCreate (stream : Key) (group : String) : Command Unit
  | xpendingRange (stream : Key) (group : String) (count : Nat) : Command (List PendingRow)
  | xrangeOne (stream : Key) (id : Nat) : Command (Option Fields)
  | xrange (stream : Key) (after count : Nat) : Command (List (Nat × Fields))
  | xautoclaim (stream : Key) (group consumer : String) (minIdle count : Nat) :
      Command (List (Nat × Fields))
  | xreadgroup (stream : Key) (group consumer : String) (count : Nat) :
      Command (List (Nat × Fields))
  | xack (stream : Key) (group : String) (id : Nat) : Command Int
  | xdel (stream : Key) (id : Nat) : Command Int
  | xinfoGroup (stream : Key) (group : String) : Command (Option (Nat × Nat))

def Command.script {α : Type} : Command α → Script Key α
  | .llen key => Redis.llen key
  | .lindexLast key => Redis.lindexLast key
  | .lmove source destination => lmoveRightLeft source destination
  | .lrem key item => Redis.lrem key item
  | .lpush key item => Redis.lpush key item
  | .hgetall key => Redis.hgetall key
  | .guardedQueueWrite queue mode payload => publishGuard queue mode payload
  | .enqueueOnce destination jobId payload => LegacyMigration.enqueueOnce destination jobId payload
  | .sismember key member => Redis.sismember key member
  | .set key text => Redis.set key text
  | .del key => Redis.del key
  | .xgroupCreate stream group => Redis.xgroupCreate stream group
  | .xpendingRange stream group count => Redis.xpendingRange stream group count
  | .xrangeOne stream id => Redis.xrangeOne stream id
  | .xrange stream after count => Redis.xrange stream after count
  | .xautoclaim stream group consumer minIdle count =>
    Redis.xautoclaim stream group consumer minIdle count
  | .xreadgroup stream group consumer count => Redis.xreadgroup stream group consumer count
  | .xack stream group id => Redis.xack stream group id
  | .xdel stream id => Redis.xdel stream id
  | .xinfoGroup stream group => Redis.xinfoGroup stream group

/-- A job that `enqueue_exported_job` pushed. -/
structure Push where
  destination : Key
  jobId : String
  payload : String
  deriving DecidableEq

/-- Redis, the events that publishing put onto streams, and since the export lock was taken the
jobs pushed to lists and the stream entries acknowledged or deleted. -/
structure World where
  db : Db Key
  published : List (Key × String)
  pushed : List Push
  settled : List Fields

def World.record {α : Type} (w : World) : Command α → α → World
  | .guardedQueueWrite queue mode payload, _ =>
    if mode = "list" then w else { w with published := (queue, payload) :: w.published }
  | .enqueueOnce destination jobId payload, reply =>
    if reply = 1 then { w with pushed := ⟨destination, jobId, payload⟩ :: w.pushed } else w
  | .xack stream _ id, _ | .xdel stream id, _ =>
    { w with settled := ((w.db.stream stream).entryAt id).toList ++ w.settled }
  | .set key _, _ =>
    if key = .exportLock ∧ w.db.live key = none then { w with pushed := [], settled := [] } else w
  | _, _ => w

def World.run {α : Type} (command : Command α) (w : World) : Except Error α × World :=
  match command.script w.db with
  | (.ok reply, db) => (.ok reply, { w.record command reply with db := db })
  | (.error error, db) => (.error error, { w with db := db })

abbrev Performed {α : Type} (command : Command α) (w : World) : Except Error α → World → Prop :=
  Program.Answers Error.connection (World.run command) w

end AiBuddy.Queue.LegacyMigration
