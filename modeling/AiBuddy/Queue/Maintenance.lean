import AiBuddy.Redis.Streams
import AiBuddy.Queue.JobLease.Scripts

/-!
# Stream maintenance (`services/queue/maintenance.py`)

The pass that takes stuck entries off the pending list of a consumer group. The commands of a
pass follow each other here with nothing in between, and `try` keeps what they have written.
-/

namespace AiBuddy.Queue.Maintenance

open Redis JobLease

def stuckIdleMs : Nat := 15 * 60 * 1000

def stuckDeliveries : Nat := 8

def shouldReapPending (idleMs deliveries : Nat) (idleLimitMs : Nat := stuckIdleMs)
    (maxDeliveries : Nat := stuckDeliveries) : Bool :=
  idleLimitMs ≤ idleMs || maxDeliveries ≤ deliveries

/-- What the pass reads of a row of `XPENDING`. -/
structure PendingItem where
  messageId : Nat
  idleMs : Nat
  deliveries : Nat
  deriving DecidableEq

/-- The stream and the group of a pass, with the setting and the JSON encoder that it uses. -/
structure Target where
  stream : String
  group : String
  deadLetterStream : String
  dumps : List (String × String) → String
  idleLimitMs : Nat := stuckIdleMs

structure Totals where
  reaped : Nat
  trimmed : Nat := 0
  deriving DecidableEq

/-- `try`: the outcome of a script, as a value. -/
def attempt {α : Type} (script : Script Key α) : Script Key (Except Error α) :=
  fun db => (.ok (script db).1, (script db).2)

namespace Target

variable (target : Target)

def due (item : PendingItem) : Bool :=
  shouldReapPending item.idleMs item.deliveries target.idleLimitMs

/-- `raw_event`: the event of the entry, or a note of the message. -/
def rawEvent (item : PendingItem) (row : Except Error (Option Fields)) : String :=
  let found :=
    match row with
    | .ok (some fields) => (fields.lookup "event").getD ""
    | _ => ""
  if found ≠ "" then found
  else target.dumps [("messageId", idText item.messageId), ("stream", target.stream)]

def deadLetterPending (item : PendingItem) : Script Key Unit := do
  let row ← attempt (xrangeOne (.named target.stream) item.messageId)
  let reason := "reaped_stuck_pending idle_ms=" ++ (item.idleMs : Int).repr ++
    " deliveries=" ++ (item.deliveries : Int).repr
  let _ ← xadd (.named target.deadLetterStream)
    [("event", target.rawEvent item row), ("error", reason), ("sourceStream", target.stream)]

/-- The body of the `try`: dead-letter before ack. -/
def reap (item : PendingItem) : Script Key Unit := do
  target.deadLetterPending item
  let _ ← xack (.named target.stream) target.group item.messageId
  let _ ← xdel (.named target.stream) item.messageId

/-- One turn of the loop, with what it adds to `reaped`. -/
def reapItem (item : PendingItem) : Script Key Nat :=
  if target.due item then do
    match ← attempt (target.reap item) with
    | .ok _ => return 1
    | .error _ => return 0
  else return 0

def reapItems : List PendingItem → Script Key Nat
  | [] => return 0
  | item :: rest => do
    let reaped ← target.reapItem item
    let others ← reapItems rest
    return reaped + others

/-- `redis.xpending_range(stream, group, min="-", max="+", count=50)`. -/
def pendingItems : Script Key (List PendingItem) := do
  let rows ← xpendingRange (.named target.stream) target.group 50
  let now ← clock
  return rows.map fun row =>
    { messageId := row.id, idleMs := now - row.deliveredAt, deliveries := row.deliveries }

/-- The rows that the pass works on: none where `XPENDING` fails. -/
def listed (db : Db Key) : List PendingItem :=
  match (target.pendingItems db).1 with
  | .ok items => items
  | .error _ => []

def reapStuckStream : Script Key Totals := do
  let pending ← attempt target.pendingItems
  let reaped ← target.reapItems <|
    match pending with
    | .ok items => items
    | .error _ => []
  return { reaped }

def deadLettered : List PendingItem → Db Key → List Nat
  | [], _ => []
  | item :: rest, db =>
    let later := deadLettered rest (target.reapItem item db).2
    if target.due item then
      match (target.deadLetterPending item db).1 with
      | .ok _ => item.messageId :: later
      | .error _ => later
    else later

def pending (db : Db Key) : List PendingRow :=
  match (db.stream (.named target.stream)).groups target.group with
  | some group => group.pending
  | none => []

def entry (db : Db Key) (messageId : Nat) : Option Fields :=
  (db.stream (.named target.stream)).entryAt messageId

end Target

def Streamable (key : Key) (db : Db Key) : Prop := db.kind key = "none" ∨ db.kind key = "stream"

/-- A lease of the job is stored and has not expired, and it is held for this message. -/
def heldFor (db : Db Key) (event : EventEnvelope) (messageId : Nat) : Bool :=
  match db.string? (.jobLease (logicalJobKey event)) with
  | some record =>
    wellFormed record &&
      luaPart (splitRecord record) 4 = some (field (.str (idText messageId)) 80)
  | none => false

/-- The pass leaves every pending entry alone whose job has an unexpired lease held for it.
`events` is what the messages of the stream carry. -/
def SparesRunning (target : Target) (events : Nat → EventEnvelope) (db : Db Key) : Prop :=
  ∀ row ∈ target.pending db, heldFor db (events row.id) row.id = true →
    row.id ∉ target.deadLettered (target.listed db) db ∧
    row ∈ target.pending (target.reapStuckStream db).2 ∧
    ∀ fields, target.entry db row.id = some fields →
      target.entry (target.reapStuckStream db).2 row.id = some fields

end AiBuddy.Queue.Maintenance

/-!
## Stream maintenance on a connection that fails (`services/queue/maintenance.py`)

The pass of `Maintenance` with a connection that may fail at every single command: a command may
raise before Redis has seen it, or after Redis has carried it out. Where every command is answered
it is the pass itself.
-/

namespace AiBuddy.Queue.Maintenance

open Redis JobLease

inductive Fate where
  | answered
  /-- The connection fails before Redis has seen the command. -/
  | unsent
  /-- Redis carries the command out and the answer is lost. -/
  | unheard
  deriving DecidableEq

namespace Fate

def apply {α : Type} (fate : Fate) (script : Script Key α) : Script Key α :=
  match fate with
  | answered => script
  | unsent => .fail .connection
  | unheard => fun db => (.error .connection, (script db).2)

def reaches (fate : Fate) : Bool := fate ≠ unsent

end Fate

/-- The commands of one turn: `XRANGE`, `XADD`, `XACK` and `XDEL`. -/
structure TurnFates where
  read : Fate
  write : Fate
  ack : Fate
  delete : Fate
  deriving DecidableEq

/-- The commands of a pass: `XPENDING`, and those of the turn of each message. -/
structure PassFates where
  list : Fate
  turn : Nat → TurnFates

def PassFates.answered : PassFates where
  list := .answered
  turn _ := ⟨.answered, .answered, .answered, .answered⟩

namespace Target

variable (target : Target)

def readUnder (fates : TurnFates) (item : PendingItem) : Script Key (Option Fields) :=
  fates.read.apply (xrangeOne (.named target.stream) item.messageId)

def deadLetterUnder (fates : TurnFates) (item : PendingItem) : Script Key Unit := do
  let row ← attempt (target.readUnder fates item)
  let reason := "reaped_stuck_pending idle_ms=" ++ (item.idleMs : Int).repr ++
    " deliveries=" ++ (item.deliveries : Int).repr
  let _ ← fates.write.apply <| xadd (.named target.deadLetterStream)
    [("event", target.rawEvent item row), ("error", reason), ("sourceStream", target.stream)]

def reapUnder (fates : TurnFates) (item : PendingItem) : Script Key Unit := do
  target.deadLetterUnder fates item
  let _ ← fates.ack.apply (xack (.named target.stream) target.group item.messageId)
  let _ ← fates.delete.apply (xdel (.named target.stream) item.messageId)

/-- One turn of the loop, with what it adds to `reaped`. -/
def reapItemUnder (fates : TurnFates) (item : PendingItem) : Script Key Nat :=
  if target.due item then do
    match ← attempt (target.reapUnder fates item) with
    | .ok _ => return 1
    | .error _ => return 0
  else return 0

def reapItemsUnder (fates : PassFates) : List PendingItem → Script Key Nat
  | [] => return 0
  | item :: rest => do
    let reaped ← target.reapItemUnder (fates.turn item.messageId) item
    let others ← reapItemsUnder fates rest
    return reaped + others

/-- The rows that the pass works on: none where `XPENDING` fails. -/
def listedUnder (fates : PassFates) (db : Db Key) : List PendingItem :=
  match (fates.list.apply target.pendingItems db).1 with
  | .ok items => items
  | .error _ => []

/-- `reap_stuck_stream(redis, stream, group)`. -/
def reapStuckStreamUnder (fates : PassFates) : Script Key Totals := do
  let pending ← attempt (fates.list.apply target.pendingItems)
  let reaped ← target.reapItemsUnder fates <|
    match pending with
    | .ok items => items
    | .error _ => []
  return { reaped }

/-- The message of a turn, and the keyspace before it, where its dead letter has been seen to, and
after it. -/
structure Turn where
  item : PendingItem
  before : Db Key
  lettered : Db Key
  after : Db Key

def turnAt (fates : PassFates) (item : PendingItem) (db : Db Key) : Turn where
  item
  before := db
  lettered := (target.deadLetterUnder (fates.turn item.messageId) item db).2
  after := (target.reapItemUnder (fates.turn item.messageId) item db).2

def turns (fates : PassFates) : List PendingItem → Db Key → List Turn
  | [], _ => []
  | item :: rest, db =>
    let turn := target.turnAt fates item db
    turn :: turns fates rest turn.after

def passTurns (fates : PassFates) (db : Db Key) : List Turn :=
  target.turns fates (target.listedUnder fates db) db

def envelope (db : Db Key) (messageId : Nat) : Option String :=
  ((target.entry db messageId).bind (·.lookup "event")).filter (· ≠ "")

def deadLetters (db : Db Key) : List String :=
  (db.stream (.named target.deadLetterStream)).entries.filterMap (·.2.lookup "event")

def Awaits (db : Db Key) (messageId : Nat) : Prop :=
  ∃ row ∈ target.pending db, row.id = messageId

def Settles (turn : Turn) : Prop :=
  (target.Awaits turn.before turn.item.messageId ∧
      ¬ target.Awaits turn.after turn.item.messageId) ∨
    (target.entry turn.before turn.item.messageId).isSome ∧
      target.entry turn.after turn.item.messageId = none

def Unread (fates : PassFates) (turn : Turn) : Prop :=
  ∃ error, (target.readUnder (fates.turn turn.item.messageId) turn.item turn.before).1 =
    .error error

/-- A message that is settled has left the envelope of its entry in the dead-letter stream before
that, and one whose entry could not be read is not settled. -/
def Preserves (fates : PassFates) (turn : Turn) : Prop :=
  (target.Settles turn → ∀ event, target.envelope turn.before turn.item.messageId = some event →
    event ∈ target.deadLetters turn.lettered) ∧
  (target.Unread fates turn → ¬ target.Settles turn)

end Target

end AiBuddy.Queue.Maintenance
