import AiBuddy.Queue.LegacyMigration.Commands
import AiBuddy.Redis.StreamOrder

/-!
# Runs of the migration and of the rollback

The coroutines of `services/queue/legacy_list_migration.py`, command by command.
Loops without a bound of their own take one and end in `Fault.stopped` when it is
used up, which is a crash at that point.
-/

namespace AiBuddy.Queue.LegacyMigration

open Redis Program

inductive Fault where
  | redis (error : Error)
  | poison (message : String)
  | jsonDecode
  | validation
  | value (message : String)
  | runtime (message : String)
  | cutoverLocked
  | stopped
  deriving DecidableEq

abbrev Migration (α : Type) := Raising (Remote Error Command) Fault α

def redis {α : Type} (command : Command α) : Migration α := send Fault.redis command

structure MigrationSettings where
  transport : Transport
  speechStream : String
  vectorStream : String
  retryStream : String
  speechGroup : String
  vectorGroup : String
  reclaimMinIdleMs : Nat

def speechQueue : String := "speech_transcribe_queue"

def completedSpeechQueue : String := "completed_speech_queue"

def MigrationSettings.stream (settings : MigrationSettings) : Kind → String
  | .speech => settings.speechStream
  | .vector => settings.vectorStream

def MigrationSettings.group (settings : MigrationSettings) : Kind → String
  | .speech => settings.speechGroup
  | .vector => settings.vectorGroup

/-- A parser's value, or its `MigrationPoison` raised. -/
def ofParsed {α : Type} : Parsed α → Migration α
  | .ok value => pure value
  | .error message => throw (.poison message)

def guardedQueueWrite (queue : String) (mode : Transport) (payload : String) : Migration String :=
  send (fun error =>
      if error = .reply "speech-vector-export-locked" then .cutoverLocked else .redis error)
    (.guardedQueueWrite (.named queue) mode.text payload)

def publishSpeechJob (codec : Codec) (settings : MigrationSettings) (job : Payload)
    (stamp : Stamp) :
    Migration String :=
  match settings.transport with
  | .stream => do
    match speechJobEvent job stamp with
    | none => throw (.value "Speech job payload is missing job_id")
    | some event =>
      let _ ← guardedQueueWrite settings.speechStream .stream (codec.dump event)
      return settings.speechStream
  | .list => do
    let _ ← guardedQueueWrite speechQueue .list (codec.dumps job)
    return speechQueue

/-- `publish_completed_speech_job`, `redis_queue.py:299`, with the client of the migration and no
job given. -/
def publishCompletedSpeechJob (codec : Codec) (settings : MigrationSettings) (jobId : String)
    (stamp : Stamp) : Migration String :=
  match settings.transport with
  | .stream => do
    let source ← attempt (redis (.hgetall (.speechJob jobId)))
    let source : Payload :=
      match source with
      | .ok fields => fields.map (fun pair => (pair.1, .str pair.2))
      | .error _ => []
    match vectorJobEvent jobId source stamp with
    | none => throw (.value "Completed speech job is missing job_id")
    | some event =>
      let _ ← guardedQueueWrite settings.vectorStream .stream (codec.dump event)
      return settings.vectorStream
  | .list => do
    let _ ← guardedQueueWrite completedSpeechQueue .list jobId
    return completedSpeechQueue

/-- `_publish_speech` and `_publish_completed`. -/
def publish (codec : Codec) (settings : MigrationSettings) (kind : Kind) (raw : String)
    (stamp : Stamp) : Migration String :=
  match kind with
  | .speech => do
    let job ← ofParsed (parseLegacySpeechItem codec raw)
    publishSpeechJob codec settings job stamp
  | .vector => do
    let jobId ← ofParsed (parseLegacyCompletedItem codec raw)
    publishCompletedSpeechJob codec settings jobId stamp

/-- The counts that `migrate_list` returns. -/
structure MigrationCounts where
  sourceDepth : Int
  processingDepth : Int
  failedDepth : Int
  migrated : Int
  failed : Int
  execute : Bool
  deriving DecidableEq

/-- The next item of the processing list, moved there from the source if there is none. -/
def takeUp (lists : QueueLists) : Migration (Option String) := do
  match ← redis (.lindexLast lists.processing) with
  | some held => return some held
  | none => redis (.lmove lists.source lists.processing)

/-- The loop of `migrate_list`. Each round migrates or parks one item, so the number of rounds
left is `max(1, limit) - migrated - failed`. -/
def migrateLoop (lists : QueueLists) (publish : String → Stamp → Migration String)
    (stamps : Nat → Stamp) : Nat → Int → Int → Migration (Int × Int)
  | 0, migrated, failed => return (migrated, failed)
  | rounds + 1, migrated, failed => do
    match ← takeUp lists with
    | none => return (migrated, failed)
    | some raw =>
      match ← attempt (publish raw (stamps rounds)) with
      | .error (.poison _) =>
        let _ ← redis (.lrem lists.processing raw)
        let _ ← redis (.lpush lists.failed raw)
        migrateLoop lists publish stamps rounds migrated (failed + 1)
      | .error fault => throw fault
      | .ok _ =>
        let removed ← redis (.lrem lists.processing raw)
        if removed < 1 then
          throw (.runtime
            "legacy migration published a job but could not retire the processing copy")
        else migrateLoop lists publish stamps rounds (migrated + 1) failed

def migrateList (lists : QueueLists) (publish : String → Stamp → Migration String)
    (stamps : Nat → Stamp) (execute : Bool) (limit : Int) : Migration MigrationCounts := do
  let sourceDepth ← redis (.llen lists.source)
  let processingDepth ← redis (.llen lists.processing)
  let failedDepth ← redis (.llen lists.failed)
  if !execute then return ⟨sourceDepth, processingDepth, failedDepth, 0, 0, false⟩
  else
    let (migrated, failed) ← migrateLoop lists publish stamps (max 1 limit).toNat 0 0
    -- the backlog count of the closing log line
    let _ ← redis (.llen lists.source)
    let _ ← redis (.llen lists.processing)
    let sourceDepth ← redis (.llen lists.source)
    let processingDepth ← redis (.llen lists.processing)
    let failedDepth ← redis (.llen lists.failed)
    return ⟨sourceDepth, processingDepth, failedDepth, migrated, failed, true⟩

def inventory (speech completed : QueueLists) : Migration (List Int) :=
  [speech.source, speech.processing, speech.failed, completed.source, completed.processing,
    completed.failed].mapM (fun key => redis (.llen key))

def migrateSpeechAndVectorBacklog (codec : Codec) (settings : MigrationSettings)
    (speech completed : QueueLists) (stamps : Nat → Stamp) (execute : Bool) (limit : Int) :
    Migration (List Int × MigrationCounts × MigrationCounts × List Int) := do
  if execute ∧ settings.transport ≠ .stream then
    throw (.runtime
      ("Refusing to migrate while SPEECH_VECTOR_QUEUE_TRANSPORT is not 'stream'. " ++
        "List consumers would still be authoritative."))
  else
    let before ← inventory speech completed
    let speechCounts ← migrateList speech (publish codec settings .speech) stamps execute limit
    let completedCounts ←
      migrateList completed (publish codec settings .vector) stamps execute limit
    return (before, speechCounts, completedCounts, ← inventory speech completed)

def enqueueExportedJob (destination : Key) (jobId payload : String) : Migration Int :=
  redis (.enqueueOnce destination jobId payload)

/-- The loop of `restore_migrating_list`. A poison item does not count towards the limit. -/
def restoreLoop (codec : Codec) (kind : Kind) (lists : QueueLists) (limit : Int) :
    Nat → Int → Migration Int
  | 0, _ => throw .stopped
  | fuel + 1, restored => do
    if restored < limit then
      match ← redis (.lindexLast lists.processing) with
      | none => return restored
      | some raw =>
        match restoredForm codec kind raw with
        | .error _ =>
          let _ ← redis (.lrem lists.processing raw)
          let _ ← redis (.lpush lists.failed raw)
          restoreLoop codec kind lists limit fuel restored
        | .ok (jobId, payload) =>
          let _ ← enqueueExportedJob lists.source jobId payload
          let removed ← redis (.lrem lists.processing raw)
          if removed < 1 then
            throw (.runtime
              "rollback restored a migrating job but could not remove the processing copy")
          else restoreLoop codec kind lists limit fuel (restored + 1)
    else return restored

/-- `restore_migrating_list`: the number restored and the number
left. -/
def restoreMigratingList (codec : Codec) (kind : Kind) (lists : QueueLists) (limit : Int)
    (fuel : Nat) : Migration (Int × Int) := do
  let restored ← restoreLoop codec kind lists limit fuel 0
  return (restored, ← redis (.llen lists.processing))

/-- `fields.get("event") or ""`. -/
def eventText (fields : Fields) : String := (fields.lookup "event").getD ""

def exportItem (codec : Codec) (kind : Kind) (fields : Fields) : Except Fault (String × String) :=
  match toListItem codec kind (eventText fields) with
  | none => .error .validation
  | some (.error message) => .error (.poison message)
  | some (.ok item) =>
    match jobIdFromExportItem codec item with
    | none => .error .jsonDecode
    | some jobId => .ok (jobId, item)

def pendingCount (stream : Key) (group : String) : Migration Int := do
  match ← attempt (redis (.xinfoGroup stream group)) with
  | .ok (some (pending, lag)) => return pending + lag
  | .ok none => return 0
  | .error (.redis .connection) => throw (.redis .connection)
  | .error _ => return 0

/-- The first loop of `export_unacked_stream_to_list`: entries that an earlier pass pushed and
did not come to acknowledge. -/
def ackLedgered (codec : Codec) (kind : Kind) (stream : Key) (group : String) :
    List PendingRow → Int → Migration Int
  | [], exported => return exported
  | row :: rows, exported => do
    match ← redis (.xrangeOne stream row.id) with
    | none => ackLedgered codec kind stream group rows exported
    | some fields =>
      match exportItem codec kind fields with
      | .error (.poison _) => ackLedgered codec kind stream group rows exported
      | .error .jsonDecode => ackLedgered codec kind stream group rows exported
      | .error fault => throw fault
      | .ok (jobId, _) =>
        if (← redis (.sismember .exportLedger jobId)) = 0 then
          ackLedgered codec kind stream group rows exported
        else
          let _ ← redis (.xack stream group row.id)
          ackLedgered codec kind stream group rows (exported + 1)

def exportEntries (codec : Codec) (kind : Kind) (stream : Key) (group : String) (destination : Key)
    (limit : Int) : List (Nat × Fields) → Int → Migration Int
  | [], exported => return exported
  | (id, fields) :: entries, exported => do
    if limit ≤ exported then return exported
    else
      match exportItem codec kind fields with
      | .error fault => throw fault
      | .ok (jobId, item) =>
        let _ ← enqueueExportedJob destination jobId item
        let _ ← redis (.xack stream group id)
        exportEntries codec kind stream group destination limit entries (exported + 1)

def nextBatch (minIdle : Nat) (stream : Key) (group : String) (count : Nat) :
    Migration (List (Nat × Fields)) := do
  let claimed ← redis (.xautoclaim stream group "legacy-export" minIdle count)
  if claimed.isEmpty then redis (.xreadgroup stream group "legacy-export" count)
  else return claimed

/-- The second loop of `export_unacked_stream_to_list`. -/
def exportLoop (codec : Codec) (kind : Kind) (minIdle : Nat) (stream : Key) (group : String)
    (destination : Key) (limit : Int) : Nat → Int → Migration Int
  | 0, _ => throw .stopped
  | fuel + 1, exported => do
    if exported < limit then
      let entries ← nextBatch minIdle stream group (min 50 (limit - exported)).toNat
      if entries.isEmpty then return exported
      else
        let exported ← exportEntries codec kind stream group destination limit entries exported
        exportLoop codec kind minIdle stream group destination limit fuel exported
    else return exported

/-- `XGROUP CREATE`, where a group that exists already is no error. -/
def ensureGroup (stream : Key) (group : String) : Migration Unit := do
  match ← attempt (redis (.xgroupCreate stream group)) with
  | .error (.redis .busyGroup) => return ()
  | .error fault => throw fault
  | .ok () => return ()

/-- `export_unacked_stream_to_list`, with `execute`: the number
exported and the number still pending. -/
def exportUnackedStreamToList (codec : Codec) (settings : MigrationSettings) (kind : Kind)
    (destination : Key) (limit : Int) (fuel : Nat) : Migration (Int × Int) := do
  let stream := Key.named (settings.stream kind)
  let group := settings.group kind
  ensureGroup stream group
  let rows ← redis (.xpendingRange stream group (max 1 limit).toNat)
  let exported ← ackLedgered codec kind stream group rows 0
  let exported ←
    exportLoop codec kind settings.reclaimMinIdleMs stream group destination limit fuel exported
  return (exported, ← pendingCount stream group)

def retryKind (settings : MigrationSettings) (fields : Fields) : Option Kind :=
  let target := (fields.lookup "targetStream").getD ""
  if target = settings.speechStream then some .speech
  else if target = settings.vectorStream then some .vector
  else none

def exportRetries (codec : Codec) (settings : MigrationSettings) (destination : Kind → Key)
    (limit : Int) : List (Nat × Fields) → Int → Migration Int
  | [], exported => return exported
  | (id, fields) :: rows, exported => do
    if limit ≤ exported then return exported
    else
      match retryKind settings fields with
      | none => exportRetries codec settings destination limit rows exported
      | some kind =>
        if eventText fields = "" then exportRetries codec settings destination limit rows exported
        else
          match exportItem codec kind fields with
          | .error fault => throw fault
          | .ok (jobId, item) =>
            let _ ← enqueueExportedJob (destination kind) jobId item
            let _ ← redis (.xdel (.named settings.retryStream) id)
            exportRetries codec settings destination limit rows (exported + 1)

def exportRetryStream (codec : Codec) (settings : MigrationSettings) (destination : Kind → Key)
    (limit : Int) : Migration Int := do
  let rows ← redis (.xrange (.named settings.retryStream) 0 (max 1 limit).toNat)
  exportRetries codec settings destination limit rows 0

def matchingRetryCount (settings : MigrationSettings) : Nat → Nat → Int → Migration Int
  | 0, _, _ => throw .stopped
  | fuel + 1, start, count => do
    match ← attempt (redis (.xrange (.named settings.retryStream) start 200)) with
    | .error (.redis .connection) => throw (.redis .connection)
    | .error _ => return count
    | .ok rows =>
      let count := count + (rows.filter (fun row => (retryKind settings row.2).isSome)).length
      match rows.getLast? with
      | none => return count
      | some last =>
        if rows.length < 200 then return count
        else matchingRetryCount settings fuel last.1 count

/-- What `rollback_speech_vector_to_lists` returns. -/
structure RollbackResult where
  speech : Int × Int
  vector : Int × Int
  retries : Int
  speechMigrating : Int × Int
  vectorMigrating : Int × Int
  stillPending : Int
  migratingLeft : Int
  retryLeft : Int
  publishersPaused : Bool
  deriving DecidableEq

/-- One pass of `rollback_speech_vector_to_lists`, with
`execute`. -/
def rollbackSpeechVectorToLists (codec : Codec) (settings : MigrationSettings)
    (lists : Kind → QueueLists) (limit : Int) (fuel : Nat) : Migration RollbackResult := do
  redis (.set .exportLock "rollback")
  let speechMigrating ← restoreMigratingList codec .speech (lists .speech) limit fuel
  let vectorMigrating ← restoreMigratingList codec .vector (lists .vector) limit fuel
  let speech ←
    exportUnackedStreamToList codec settings .speech (lists .speech).source limit fuel
  let vector ←
    exportUnackedStreamToList codec settings .vector (lists .vector).source limit fuel
  let retries ← exportRetryStream codec settings (fun kind => (lists kind).source) limit
  let stillPending := speech.2 + vector.2
  let migratingLeft := speechMigrating.2 + vectorMigrating.2
  let retryLeft ← matchingRetryCount settings fuel 0 0
  let unfinished := stillPending + migratingLeft + retryLeft
  if unfinished = 0 then
    let _ ← redis (.del .exportLedger)
    let _ ← redis (.del .exportLock)
    return ⟨speech, vector, retries, speechMigrating, vectorMigrating, stillPending,
      migratingLeft, retryLeft, false⟩
  else
    return ⟨speech, vector, retries, speechMigrating, vectorMigrating, stillPending,
      migratingLeft, retryLeft, true⟩

end AiBuddy.Queue.LegacyMigration

/-!
## Where a legacy item is

The places of one queue where an item of its lists may be, the runs of
`migrate_list` and `restore_migrating_list` on these lists, and when such a run
takes up only items that it does not drop.
-/

namespace AiBuddy.Queue.LegacyMigration

open Redis

section Coverage

variable (codec : Codec) (kind : Kind) (lists : QueueLists) (stream : Key)

def Placed (w : World) (item : String) : Prop :=
  item ∈ w.db.list lists.source ∨ item ∈ w.db.list lists.failed ∨
    ∃ text, (stream, text) ∈ w.published ∧ IsEventOf codec kind item text

def Held (w : World) (item : String) : Prop :=
  item ∈ w.db.list lists.processing ∨ Placed codec kind lists stream w item

/-- `restore_migrating_list` puts `payload` onto the list for `raw`. -/
def RestoredTo (raw payload : String) : Prop :=
  ∃ jobId, restoredForm codec kind raw = .ok (jobId, payload)

/-- The item is in one of the places, as it was or as it was restored, once or more often. -/
def Present (w : World) (item : String) : Prop :=
  ∃ form, Relation.ReflTransGen (RestoredTo codec kind) item form ∧
    Held codec kind lists stream w form

def Parses (raw : String) : Prop := ∃ restored, restoredForm codec kind raw = .ok restored

def Elsewhere (w w' : World) : Prop :=
  (∀ key ∈ [lists.source, lists.processing, lists.failed], ∀ item ∈ w.db.list key,
    item ∈ w'.db.list key) ∧ w'.published = w.published

/-- A command does not take up poison, and does not restore an item whose job id the export
ledger has already, unless the restored item is in its place. -/
def Sound {α : Type} (command : Command α) (w : World) : Prop :=
  match command with
  | .lindexLast key =>
    key = lists.processing → ∀ item, (w.db.list key).getLast? = some item → Parses codec kind item
  | .lmove source _ =>
    source = lists.source →
      ∀ item, (w.db.list source).getLast? = some item → Parses codec kind item
  | .enqueueOnce destination jobId payload =>
    destination = lists.source → jobId ∈ w.db.set .exportLedger →
      Placed codec kind lists stream w payload
  | _ => True

end Coverage

/-- A run of `migrate_list` or `restore_migrating_list` on one queue. -/
inductive MigrationSession (codec : Codec) (settings : MigrationSettings) (kind : Kind)
    (lists : QueueLists) : (α : Type) → Program (Program.Remote Error Command) α → Prop where
  | migrate (stamps : Nat → Stamp) (execute : Bool) (limit : Int) :
      MigrationSession codec settings kind lists _
        (migrateList lists (publish codec settings kind) stamps execute limit).run
  | restore (limit : Int) (fuel : Nat) :
      MigrationSession codec settings kind lists _
        (restoreMigratingList codec kind lists limit fuel).run

def World.fresh (db : Db Key) : World := ⟨db, [], [], []⟩

/-- The runs from `db`, one after the other, each cut off anywhere. `allowed` restricts the
commands to those that meet a condition. -/
abbrev MigrationRun (codec : Codec) (settings : MigrationSettings) (kind : Kind)
    (lists : QueueLists) (allowed : ∀ {α : Type}, Command α → World → Prop) (db : Db Key) :
    World → Prop :=
  Program.Sessions
    (Program.Remote.semantics fun command w reply w' =>
      allowed command w ∧ Performed command w reply w')
    (Elsewhere lists) (MigrationSession codec settings kind lists) (World.fresh db)

end AiBuddy.Queue.LegacyMigration

/-!
## Runs of the rollback

Passes of `rollback_speech_vector_to_lists`, one after the other, and what they owe
to the stream entries that they acknowledge or delete.
-/

namespace AiBuddy.Queue.LegacyMigration

open Redis

/-- Since the lock was taken a job of this id was pushed to the list of its kind. Jobs without an
id are told apart by their text. -/
def JobPushed (lists : Kind → QueueLists) (w : World) (kind : Kind) (jobId item : String) : Prop :=
  ∃ payload, ⟨(lists kind).source, jobId, payload⟩ ∈ w.pushed ∧ (jobId = "" → payload = item)

/-- Every stream entry acknowledged or deleted since the lock was taken has a job, and it was
pushed. -/
def SettledPushed (codec : Codec) (lists : Kind → QueueLists) (w : World) : Prop :=
  ∀ fields ∈ w.settled, ∃ kind jobId item,
    exportItem codec kind fields = .ok (jobId, item) ∧ JobPushed lists w kind jobId item

/-- The rest of the system leaves the export lock and its ledger alone, and streams move
forward. -/
structure Outside (w w' : World) : Prop where
  lock : w'.db.live .exportLock = w.db.live .exportLock
  ledger : w'.db.live .exportLedger = w.db.live .exportLedger
  pushed : w'.pushed = w.pushed
  settled : w'.settled = w.settled
  streams : ∀ name, (w.db.stream (.named name)).Ordered →
    (w.db.stream (.named name)).Follows (w'.db.stream (.named name)) ∧
      (w'.db.stream (.named name)).Ordered

inductive RollbackPass (codec : Codec) (settings : MigrationSettings) (lists : Kind → QueueLists) :
    (α : Type) → Program (Program.Remote Error Command) α → Prop where
  | pass (limit : Int) (fuel : Nat) :
      RollbackPass codec settings lists _
        (rollbackSpeechVectorToLists codec settings lists limit fuel).run

/-- Job ids are assigned to kinds: what a pass puts onto a list has an id of the list's kind, and
what it acknowledges has an id of its own kind. Jobs without an id all have the text `blank`. -/
def Assigned (codec : Codec) (lists : Kind → QueueLists) (kindOf : String → Kind) (blank : String)
    {α : Type} (command : Command α) (w : World) : Prop :=
  match command with
  | .enqueueOnce destination jobId payload =>
    destination = (lists (kindOf jobId)).source ∧ (jobId = "" → payload = blank)
  | .xack stream _ id =>
    ∀ fields, (w.db.stream stream).entryAt id = some fields →
      ∀ kind jobId item, exportItem codec kind fields = .ok (jobId, item) →
        kindOf jobId = kind ∧ (jobId = "" → item = blank)
  | _ => True

/-- The runs of passes from `db`. `allowed` restricts the commands to those that meet a
condition. -/
abbrev ExportRun (codec : Codec) (settings : MigrationSettings) (lists : Kind → QueueLists)
    (allowed : ∀ {α : Type}, Command α → World → Prop) (db : Db Key) : World → Prop :=
  Program.Sessions
    (Program.Remote.semantics fun command w reply w' =>
      allowed command w ∧ Performed command w reply w')
    Outside (RollbackPass codec settings lists) ⟨db, [], [], []⟩

end AiBuddy.Queue.LegacyMigration
