import AiBuddy.Queue.Envelope

/-!
# Logical job keys

`logical_job_key` of `services/queue/job_lease.py:248-306` and the text helpers it
uses. The key is what a lease is held for: two events with one key are one job.
-/

namespace AiBuddy.Queue.JobLease

def clean (value : PyVal) : String :=
  let text := Text.strip (if value.truthy then value.pyStr else "")
  if Text.lower text ∈ ["none", "null", "undefined"] then "" else text

/-- `_field`: no separator, no line break, at most `limit` characters. -/
def field (value : PyVal) (limit : Nat := 120) : String :=
  Text.take limit (Text.replace '\n' ' ' (Text.replace '|' '_' (clean value)))

theorem bar_notMem_field (value : PyVal) (limit : Nat) : '|' ∉ (field value limit).toList :=
  Text.notMem_take limit
    (Text.notMem_replace_of_notMem (Text.notMem_replace _ (by decide)) (by decide))

def truthy (value : PyVal) : Bool :=
  Text.lower (Text.strip value.pyStr) ∈ ["1", "true", "yes"]

def contains (text needle : String) : Bool := decide (needle.toList <:+: text.toList)

def startsWith (text head : String) : Bool := head.toList.isPrefixOf text.toList

def conversationSerialTypes : List String :=
  ["conversation.processing.requested", "conversation.finalization.requested",
    "conversation.transcript.ready", "conversation.schedule_extraction.requested",
    "meeting.video.merge.requested"]

def isoStamp (event : EventEnvelope) : String := field (.str event.createdAt)

/-- `_iso_stamp(event) or _field(event.eventId)`. -/
def stampOrId (event : EventEnvelope) : String :=
  if isoStamp event ≠ "" then isoStamp event else field (.str event.eventId)

/-- `_with_generation`: separate a new processing generation from a
retry of the same one. -/
def withGeneration (kind base : String) (payload : Payload) (event : EventEnvelope) : String :=
  let version := clean (payload.get "processingVersion")
  let base := if version ≠ "" then base ++ "|v:" ++ field (.str version) else base
  let source := Text.lower (clean (payload.get "source"))
  let base :=
    if truthy (payload.get "reprocess") || contains source "reprocess" then
      base ++ "|redo:" ++ stampOrId event
    else base
  let sourceEvent := clean (payload.get "sourceEventId")
  if kind = "conversation.schedule_extraction.requested" ∧ sourceEvent ≠ "" then
    base ++ "|src:" ++ field (.str sourceEvent)
  else base

/-- `sequence = payload.get("sequenceNumber")`, then `payload.get("sequence")`. -/
def sequenceOf (payload : Payload) : PyVal :=
  match payload.get "sequenceNumber" with
  | .none => payload.get "sequence"
  | sequence => sequence

/-- `logical_job_key`: the first rule whose fields are present. -/
def logicalJobKey (event : EventEnvelope) : String :=
  let payload := event.payload
  let kindField := field ((PyVal.str event.eventType).or (.str "event")) 80
  let kind := if kindField ≠ "" then kindField else "event"
  let jobId := clean (payload.get "jobId")
  let windowId := clean (payload.get "windowId")
  let mindmapId := clean (payload.get "mindmapId")
  let documentId := clean (payload.get "documentId")
  let dateKey := clean (payload.get "dateKey")
  let userId := clean (.str event.userId)
  let conversation := clean ((payload.get "conversationId").or (.str event.conversationId))
  let sequence := sequenceOf payload
  if jobId ≠ "" ∧ startsWith kind "conversation." = false then
    kind ++ "|job:" ++ field (.str jobId)
  else if windowId ≠ "" then
    withGeneration kind (kind ++ "|window:" ++ field (.str windowId)) payload event
  else if mindmapId ≠ "" then
    kind ++ "|mindmap:" ++ field (.str mindmapId)
  else if documentId ≠ "" then
    kind ++ "|document:" ++ field (.str documentId)
  else if dateKey ≠ "" ∧ userId ≠ "" ∧ contains kind "briefing" then
    let base := kind ++ "|user:" ++ field (.str userId) ++ "|date:" ++ field (.str dateKey)
    -- createdAt survives the retry relay's new event id
    if truthy (payload.get "forced") then base ++ "|force:" ++ stampOrId event else base
  else if startsWith kind "goal." then
    let goalId := clean (payload.get "goalId")
    let goalId := if goalId ≠ "" then goalId else conversation
    let goalJob := if jobId ≠ "" then jobId else clean (.str event.eventId)
    kind ++ "|goal:" ++ field (.str goalId) ++ "|job:" ++ field (.str goalJob)
  else if kind ∈ conversationSerialTypes ∧ conversation ≠ "" then
    withGeneration kind (kind ++ "|conversation:" ++ field (.str conversation)) payload event
  else if sequence ≠ .none ∧ conversation ≠ "" ∧ Text.strip sequence.pyStr ≠ "" then
    let chunk := clean (payload.get "chunkId")
    let suffix := if chunk ≠ "" then "|chunk:" ++ field (.str chunk) else ""
    kind ++ "|conversation:" ++ field (.str conversation) ++ "|seq:" ++ field sequence ++ suffix
  else if conversation ≠ "" ∧ startsWith kind "conversation." then
    kind ++ "|conversation:" ++ field (.str conversation)
  else
    kind ++ "|event:" ++ field ((PyVal.str event.eventId).or (.str "unknown"))

end AiBuddy.Queue.JobLease

/-!
## Retried events

The copy that `_handle_failure` of `services/queue/streams.py` puts on the retry stream, and the one
that `run_retry_relay` publishes from it. An envelope comes back from JSON as it went in.
-/

namespace AiBuddy.Queue

open JobLease

/-- The copy of `_handle_failure`. -/
def EventEnvelope.retry (event : EventEnvelope) : EventEnvelope :=
  { event with attempt := event.attempt + 1 }

/-- The copy of `run_retry_relay`, `conversation_workers.py:556`, under the new id. -/
def EventEnvelope.relay (event : EventEnvelope) (newId : String) : EventEnvelope :=
  { event with eventId := newId, causationId := some event.eventId }

/-- The copies of an event that fails again and again: each failure writes a retry copy, which the
relay publishes under the next id. -/
def EventEnvelope.copies : EventEnvelope → List String → List EventEnvelope
  | event, [] => [event.retry]
  | event, newId :: rest =>
    event.retry :: event.retry.relay newId :: (event.retry.relay newId).copies rest

/-- The text of `uuid4()`. -/
structure IsUuid (text : String) : Prop where
  length : text.toList.length = 36
  digits : ∀ c ∈ text.toList, c.isDigit = true ∨ ('a' ≤ c ∧ c ≤ 'f') ∨ c = '-'

/-- `_with_generation` puts the stamp of the event into the key, and the stamp is the event id. -/
def redoneById (event : EventEnvelope) : Bool :=
  (truthy (event.payload.get "reprocess") ||
    contains (Text.lower (clean (event.payload.get "source"))) "reprocess") && isoStamp event = ""

/-- The rule of `logical_job_key` that applies to an event reads the event id. -/
def namedByEventId (event : EventEnvelope) : Bool :=
  let payload := event.payload
  let kindField := field ((PyVal.str event.eventType).or (.str "event")) 80
  let kind := if kindField ≠ "" then kindField else "event"
  let jobId := clean (payload.get "jobId")
  let conversation := clean ((payload.get "conversationId").or (.str event.conversationId))
  let sequence := sequenceOf payload
  if jobId ≠ "" ∧ startsWith kind "conversation." = false then false
  else if clean (payload.get "windowId") ≠ "" then redoneById event
  else if clean (payload.get "mindmapId") ≠ "" then false
  else if clean (payload.get "documentId") ≠ "" then false
  else if clean (payload.get "dateKey") ≠ "" ∧ clean (.str event.userId) ≠ "" ∧
      contains kind "briefing" then
    truthy (payload.get "forced") && isoStamp event = ""
  else if startsWith kind "goal." then jobId = ""
  else if kind ∈ conversationSerialTypes ∧ conversation ≠ "" then redoneById event
  else if sequence ≠ .none ∧ conversation ≠ "" ∧ Text.strip sequence.pyStr ≠ "" then false
  else if conversation ≠ "" ∧ startsWith kind "conversation." then false
  else true

end AiBuddy.Queue
