import AiBuddy.Queue.Envelope
import AiBuddy.Redis.Streams
import Mathlib.Algebra.Ring.Int.Defs
import AiBuddy.Misc.History

/-!
# Publishing an event and its dedupe record

`_PUBLISH_LUA` and `atomic_publish` of `services/queue/atomic_publish.py`. One
script pushes the queue entry, writes the dedupe record of the event id and fills
the hash of a speech job.
-/

namespace AiBuddy.Queue.AtomicPublish

open Redis

/-- A value of a decoded Lua table: a scalar, by the text `tostring` gives, or a table. -/
inductive LuaValue where
  | scalar (text : String)
  | table
  deriving DecidableEq

abbrev LuaTable := List (String × LuaValue)

/-- What `cjson.decode` does with a text. -/
inductive Decoded where
  | error
  | scalar
  | table (fields : LuaTable)
  deriving DecidableEq

/-- The arguments of `atomic_publish`. `speechJobFields` is the JSON text of the metadata, if
there is any, and `speechJobKey` the job id in the key. A fingerprint is a hex digest. -/
structure PublishCall where
  eventId : String
  queue : String
  mode : String
  payload : String
  fingerprint : String
  fingerprint_ne : fingerprint ≠ ""
  correlationId : String
  checkExportLock : Bool := false
  speechJobKey : Option String := none
  speechJobFields : Option String := none
  speechJobTtl : Int := 0

/-- The setting behind the dedupe deadline, with the range of `setting.py:350`. -/
structure PublishSettings where
  presignedUrlTtlSeconds : Nat := 300
  presigned_range : 30 ≤ presignedUrlTtlSeconds ∧ presignedUrlTtlSeconds ≤ 3600 := by decide

def PublishSettings.dedupeTtlSeconds (settings : PublishSettings) : Int :=
  max 86400 (settings.presignedUrlTtlSeconds * 24)

def errorReply {α : Type} (message : String) : Script Key α := .fail (.reply message)

/-- `flat` in `write_hash`: the scalar fields. -/
def flatten (fields : LuaTable) : Fields :=
  fields.filterMap (fun pair =>
    match pair.2 with
    | .scalar text => some (pair.1, text)
    | .table => none)

/-- The stack slots a Lua function may use, `LUAI_MAXCSTACK`. -/
def maxStack : Nat := 8000

/-- `write_hash`. `unpack` needs a slot for each field and each value and one for the table. -/
def writeHash (key : Key) (fields : LuaTable) (ttl : Int) : Script Key Unit := do
  let flat := flatten fields
  if 0 < 2 * flat.length then
    if maxStack < 2 * flat.length + 1 then errorReply "too many results to unpack"
    else
      hset key flat
      let _ ← expire key ttl
      return ()
  else return ()

structure PublishArgs where
  dedupe : Key
  queue : Key
  queueText : String
  lock : Key
  speechKey : Key
  mode : String
  payload : String
  payloadHash : String
  ttl : Int
  correlation : String
  checkLock : Bool
  writeSpeech : Bool
  speechTtl : Int
  speechJson : String

def speechPreflight (cjsonDecode : String → Decoded) (args : PublishArgs) :
    Script Key LuaTable := do
  if args.writeSpeech then
    if args.speechTtl < 1 then errorReply "bad-speech-ttl"
    else
      match cjsonDecode args.speechJson with
      | .error => errorReply "invalid JSON"
      | .scalar => errorReply "bad-speech-meta"
      | .table fields => do
        let speechType ← typeOf args.speechKey
        if speechType ≠ "none" ∧ speechType ≠ "hash" then errorReply "bad-speech-meta-type"
        else return fields
  else return []

/-- The checks that come before the first write. The result is the decoded metadata and the
type of the dedupe key. -/
def preflight (cjsonDecode : String → Decoded) (args : PublishArgs) :
    Script Key (LuaTable × String) := do
  if args.mode ≠ "list" ∧ args.mode ≠ "stream" then errorReply "bad-queue-mode"
  else if args.ttl < 1 then errorReply "bad-dedupe-ttl"
  else if args.payload = "" then errorReply "empty-queue-payload"
  else
    let speechFields ← speechPreflight cjsonDecode args
    let dedupeType ← typeOf args.dedupe
    if dedupeType ≠ "none" ∧ dedupeType ≠ "hash" then errorReply "bad-dedupe-type"
    else
      let queueType ← typeOf args.queue
      if args.mode = "list" ∧ queueType ≠ "none" ∧ queueType ≠ "list" then
        errorReply "bad-queue-type"
      else if args.mode = "stream" ∧ queueType ≠ "none" ∧ queueType ≠ "stream" then
        errorReply "bad-queue-type"
      else return (speechFields, dedupeType)

/-- `if write_speech == '1' and redis.call('EXISTS', speech_key) == 0`. -/
def repairSpeech (args : PublishArgs) (speechFields : LuaTable) : Script Key Unit := do
  if args.writeSpeech then
    let there ← «exists» args.speechKey
    if there = 0 then writeHash args.speechKey speechFields args.speechTtl else return ()
  else return ()

def answerExisting (args : PublishArgs) (speechFields : LuaTable) :
    Script Key (String × String × String) := do
  let existingHash ← hget args.dedupe "payloadHash"
  let existingId := (← hget args.dedupe "redisMessageId").getD ""
  let existingQueue := (← hget args.dedupe "stream").getD args.queueText
  if existingHash.getD "" ≠ "" ∧ existingHash ≠ some args.payloadHash then
    return ("conflict", existingId, existingQueue)
  else
    repairSpeech args speechFields
    let _ ← expire args.dedupe args.ttl
    return ("duplicate", existingId, existingQueue)

def push (args : PublishArgs) : Script Key String := do
  if args.mode = "list" then
    let _ ← lpush args.queue args.payload
    return "list"
  else
    let id ← xadd args.queue [("event", args.payload)]
    return idText id

def dedupeRecord (args : PublishArgs) (messageId : String) : Fields :=
  [("state", "published"), ("stream", args.queueText), ("redisMessageId", messageId),
    ("payloadHash", args.payloadHash), ("correlationId", args.correlation)]

def publishNew (args : PublishArgs) (speechFields : LuaTable) :
    Script Key (String × String × String) := do
  let locked ← «exists» args.lock
  if args.checkLock ∧ locked = 1 then errorReply "speech-vector-export-locked"
  else
    let messageId ← push args
    hset args.dedupe (dedupeRecord args messageId)
    let _ ← expire args.dedupe args.ttl
    repairSpeech args speechFields
    return ("published", messageId, args.queueText)

def publishLua (cjsonDecode : String → Decoded) (args : PublishArgs) :
    Script Key (String × String × String) := do
  let (speechFields, dedupeType) ← preflight cjsonDecode args
  if dedupeType = "hash" then answerExisting args speechFields
  else publishNew args speechFields

/-- `write_speech = bool(speech_job_key and fields)`. -/
def PublishCall.writeSpeech (call : PublishCall) : Bool :=
  call.speechJobKey.isSome && call.speechJobFields.isSome

/-- The keys and arguments that `atomic_publish` passes. -/
def PublishCall.args (call : PublishCall) (settings : PublishSettings) : PublishArgs where
  dedupe := .dedupe call.eventId
  queue := .named call.queue
  queueText := call.queue
  lock := .exportLock
  speechKey :=
    if call.writeSpeech then .speechJob (call.speechJobKey.getD "") else .unusedSpeechMeta
  mode := call.mode
  payload := call.payload
  payloadHash := call.fingerprint
  ttl := settings.dedupeTtlSeconds
  correlation := call.correlationId
  checkLock := call.checkExportLock
  writeSpeech := call.writeSpeech
  speechTtl := if call.writeSpeech then call.speechJobTtl else 0
  speechJson := if call.writeSpeech then call.speechJobFields.getD "{}" else "{}"

/-- The script call of `atomic_publish`. -/
def publishEval (cjsonDecode : String → Decoded) (settings : PublishSettings) (call : PublishCall) :
    Script Key (String × String × String) :=
  publishLua cjsonDecode (call.args settings)

structure PublishResult where
  outcome : String
  messageId : String
  queue : String
  deriving DecidableEq

inductive PublishError where
  | speechVectorCutoverLocked
  | queuePayloadConflict (eventId : String)
  | redis (error : Error)
  | unknownOutcome
  deriving DecidableEq

/-- `atomic_publish` after the script has answered. -/
def publishResult (call : PublishCall) :
    Except Error (String × String × String) → Except PublishError PublishResult
  | .error (.reply "speech-vector-export-locked") => .error .speechVectorCutoverLocked
  | .error error => .error (.redis error)
  | .ok (outcome, messageId, queue) =>
    if outcome = "published" ∨ outcome = "duplicate" then .ok ⟨outcome, messageId, queue⟩
    else if outcome = "conflict" then .error (.queuePayloadConflict call.eventId)
    else .error .unknownOutcome

end AiBuddy.Queue.AtomicPublish

/-!
## Runs of the publish script

Any clients call `atomic_publish` in any order. Between two calls the rest of the
system may do anything but touch a dedupe record, and no record's deadline passes.
-/

namespace AiBuddy.Queue.AtomicPublish

open Redis

structure PublishEvent where
  before : Db Key
  call : PublishCall
  reply : Except Error (String × String × String)
  after : Db Key

def PublishStep (cjsonDecode : String → Decoded) (settings : PublishSettings) (db : Db Key)
    (event : PublishEvent) (db' : Db Key) : Prop :=
  event.before = db ∧ event.after = db' ∧
    publishEval cjsonDecode settings event.call db = (event.reply, db')

/-- What happens between two calls: queues are consumed, hashes expire, the export lock is set
or cleared. Only the dedupe records stay as they are. -/
def Elsewhere (db db' : Db Key) : Prop :=
  ∀ eventId, (db'.live (.dedupe eventId)).map Entry.value =
    (db.live (.dedupe eventId)).map Entry.value

abbrev PublishRun (cjsonDecode : String → Decoded) (settings : PublishSettings) (start : Db Key) :=
  History (PublishStep cjsonDecode settings) Elsewhere start

def queued (db : Db Key) (queue : Key) : Int :=
  (db.list queue).length + (db.stream queue).entries.length

def PublishEvent.pushes (event : PublishEvent) : Int :=
  queued event.after (.named event.call.queue) - queued event.before (.named event.call.queue)

/-- What `atomic_publish` returned or raised. -/
def PublishEvent.result (event : PublishEvent) : Except PublishError PublishResult :=
  publishResult event.call event.reply

def PublishEvent.hasOutcome (event : PublishEvent) (outcome : String) : Bool :=
  match event.result with
  | .ok result => result.outcome = outcome
  | .error _ => false

def pushedFor (history : List PublishEvent) (eventId : String) : Int :=
  ((history.filter (fun event => event.call.eventId = eventId)).map PublishEvent.pushes).sum

def publishedFor (history : List PublishEvent) (eventId : String) : List PublishEvent :=
  history.filter (fun event => event.call.eventId = eventId && event.hasOutcome "published")

def PublishEvent.Refused (cjsonDecode : String → Decoded) (settings : PublishSettings)
    (event : PublishEvent) : Prop :=
  ∃ error, preflight cjsonDecode (event.call.args settings) event.before =
    (.error error, event.before) ∧
    event.reply = .error error

end AiBuddy.Queue.AtomicPublish
