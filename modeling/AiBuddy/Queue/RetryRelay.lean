import AiBuddy.Queue.Maintenance

/-!
# The relay of the retry stream (`apps/api_gateway/workers/conversation_workers.py`)

`run_retry_relay` at one point in time, on the shared Redis. A pass reads the first fifty entries,
and the first exception ends it: the `try` is around the whole loop. What a pass has published is
its result.
-/

namespace AiBuddy.Queue.RetryRelay

open Redis JobLease Maintenance

structure Relay where
  retryStream : String
  /-- `float(text) > now`, or `none` where `float` raises. -/
  later : String → Option Bool
  /-- `EventEnvelope.model_validate_json(text)`, or `none` where it raises. -/
  validate : String → Option EventEnvelope
  /-- `event.model_dump_json()`. -/
  dump : EventEnvelope → String
  /-- `str(uuid4())`, for the copy of a message. -/
  newId : Nat → String

structure Publication where
  targetStream : String
  event : EventEnvelope
  deriving DecidableEq

/-- `fields.get(name)`, with `""` for a field that is missing. -/
def fieldOf (fields : Fields) (name : String) : String := (fields.lookup name).getD ""

/-- `fields.get("notBefore") or 0`, as a text. -/
def notBefore (fields : Fields) : String :=
  let text := fieldOf fields "notBefore"
  if text ≠ "" then text else "0"

/-- `XRANGE key - + COUNT count`. -/
def xrangeFirst (key : Key) (count : Nat) : Script Key (List (Nat × Fields)) := do
  let stream ← readStream key
  return stream.entries.take count

instance (key : Key) (db : Db Key) : Decidable (Streamable key db) :=
  inferInstanceAs (Decidable (_ ∨ _))

namespace Relay

variable (relay : Relay)

def copy (messageId : Nat) (fields : Fields) (event : EventEnvelope) : Publication where
  targetStream := fieldOf fields "targetStream"
  event := event.relay (relay.newId messageId)

def relayEntry (entry : Nat × Fields) : Script Key (Option Publication) :=
  let (messageId, fields) := entry
  match relay.later (notBefore fields) with
  | none => .fail (.reply "ValueError")
  | some true => return none
  | some false =>
    if fieldOf fields "targetStream" ≠ "" ∧ fieldOf fields "event" ≠ "" then
      match relay.validate (fieldOf fields "event") with
      | none => .fail (.reply "ValidationError")
      | some event => do
        let publication := relay.copy messageId fields event
        let _ ← xadd (.named publication.targetStream) [("event", relay.dump publication.event)]
        let _ ← xdel (.named relay.retryStream) messageId
        return some publication
    else do
      let _ ← xdel (.named relay.retryStream) messageId
      return none

def relayEntries : List (Nat × Fields) → Script Key (List Publication)
  | [] => return []
  | entry :: rest => do
    match ← attempt (relay.relayEntry entry) with
    | .error _ => return []
    | .ok publication =>
      let later ← relayEntries rest
      return publication.toList ++ later

def relayPass : Script Key (List Publication) := do
  match ← attempt (xrangeFirst (.named relay.retryStream) 50) with
  | .error _ => return []
  | .ok entries => relay.relayEntries entries

def relayPasses : Nat → Script Key (List Publication)
  | 0 => return []
  | count + 1 => do
    let earlier ← relayPasses count
    let published ← relay.relayPass
    return earlier ++ published

/-- `notBefore` has not passed. -/
def Early (fields : Fields) : Prop := relay.later (notBefore fields) = some true

instance (fields : Fields) : Decidable (relay.Early fields) :=
  inferInstanceAs (Decidable (_ = _))

/-- What an entry has to be republished as: it is due, it has a target and its event parses. -/
def publication? (entry : Nat × Fields) : Option Publication :=
  if relay.later (notBefore entry.2) = some false ∧ fieldOf entry.2 "targetStream" ≠ "" ∧
      fieldOf entry.2 "event" ≠ "" then
    (relay.validate (fieldOf entry.2 "event")).map (relay.copy entry.1 entry.2)
  else none

def retries (db : Db Key) : Stream := db.stream (.named relay.retryStream)

/-- What passes have published and left relays the retry stream: every entry that is due has been
published and is gone, and every entry that is early is there. -/
structure Relays (db : Db Key) (published : List Publication) (db' : Db Key) : Prop where
  due : ∀ entry ∈ (relay.retries db).entries, ∀ publication,
    relay.publication? entry = some publication →
      publication ∈ published ∧ (relay.retries db').entryAt entry.1 = none
  early : ∀ entry ∈ (relay.retries db).entries, relay.Early entry.2 →
    (relay.retries db').entryAt entry.1 = some entry.2

def Drains (db : Db Key) : Prop :=
  ∃ count published, (relay.relayPasses count db).1 = .ok published ∧
    relay.Relays db published (relay.relayPasses count db).2

/-- The turn of the entry raises: on a text that is no number, on an event that does not parse, or
on a target key that holds another type. -/
def Raises (db : Db Key) (entry : Nat × Fields) : Prop :=
  relay.later (notBefore entry.2) = none ∨
    relay.later (notBefore entry.2) = some false ∧ fieldOf entry.2 "targetStream" ≠ "" ∧
      fieldOf entry.2 "event" ≠ "" ∧
      (relay.validate (fieldOf entry.2 "event") = none ∨
        ¬ Streamable (.named (fieldOf entry.2 "targetStream")) db)

instance (db : Db Key) (entry : Nat × Fields) : Decidable (relay.Raises db entry) :=
  inferInstanceAs (Decidable (_ ∨ _))

/-- Entries that hold nothing back: none of them raises, and fewer than fifty are early. -/
structure Passable (db : Db Key) (entries : List (Nat × Fields)) : Prop where
  quiet : ∀ entry ∈ entries, ¬ relay.Raises db entry
  few : entries.countP (fun entry => relay.Early entry.2) < 50

end Relay

end AiBuddy.Queue.RetryRelay
