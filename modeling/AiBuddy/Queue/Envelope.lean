import AiBuddy.Misc.Text
import Mathlib.Data.List.Basic

/-!
# Queue event envelopes and keys

`EventEnvelope` of `services/queue/streams.py` with the values its payload holds.
-/

namespace AiBuddy.Queue

/-- A Python value of a JSON payload. Numbers with a fraction, lists and dictionaries
are kept by their truth value and their `str(...)` text. -/
inductive PyVal where
  | none
  | bool (value : Bool)
  | int (value : Int)
  | str (text : String)
  | other (truthy : Bool) (text : String)
  deriving DecidableEq

def PyVal.truthy : PyVal → Bool
  | .none => false
  | .bool value => value
  | .int value => value ≠ 0
  | .str text => text ≠ ""
  | .other truthy _ => truthy

def PyVal.pyStr : PyVal → String
  | .none => "None"
  | .bool value => if value then "True" else "False"
  | .int value => value.repr
  | .str text => text
  | .other _ text => text

def PyVal.or (left right : PyVal) : PyVal := if left.truthy then left else right

abbrev Payload := List (String × PyVal)

def Payload.get (payload : Payload) (key : String) : PyVal := (payload.lookup key).getD .none

def Payload.set (payload : Payload) (key : String) (value : PyVal) : Payload :=
  (key, value) :: payload.filter (fun pair => pair.1 ≠ key)

/-- `EventEnvelope`. `createdAt` is the UTC time in ISO form. -/
structure EventEnvelope where
  eventId : String
  eventType : String
  eventVersion : Int := 1
  correlationId : String
  causationId : Option String := none
  userId : String
  spaceId : String
  conversationId : String
  payload : Payload := []
  attempt : Int := 0
  createdAt : String
  deriving DecidableEq

end AiBuddy.Queue

/-!
## Redis keys of the queue

The keys that `services/queue` reads and writes, one constructor for each key
family. `Key.text` is the name that goes to the server. Keys whose whole name
comes from the settings or from a caller (streams and lists) are `named`.
-/

namespace AiBuddy.Queue

inductive Key where
  /-- `_lease_key`, `job_lease.py:755`. -/
  | jobLease (logicalKey : String)
  /-- `_done_key`, `job_lease.py:765`. -/
  | jobDone (logicalKey : String)
  /-- `_fence_key`, `job_lease.py:759`: one counter for every job. -/
  | jobFence
  /-- `dedupe_key`, `atomic_publish.py:154`. -/
  | dedupe (eventId : String)
  /-- `f"speech_job:{job_id}"`, `queue_api.py` and `redis_queue.py`. -/
  | speechJob (jobId : String)
  /-- `UNUSED_SPEECH_META_KEY`, `atomic_publish.py:23`. -/
  | unusedSpeechMeta
  /-- `EXPORT_LOCK_KEY`, `redis_queue.py:26`. -/
  | exportLock
  /-- `EXPORT_LEDGER_KEY`, `legacy_list_migration.py:39`. -/
  | exportLedger
  | named (name : String)
  deriving DecidableEq

def Key.text : Key → String
  | .jobLease logicalKey => "buddy:job-lease:" ++ logicalKey
  | .jobDone logicalKey => "buddy:job-done:" ++ logicalKey
  | .jobFence => "buddy:job-fence:global"
  | .dedupe eventId => "queue_api:event:" ++ eventId
  | .speechJob jobId => "speech_job:" ++ jobId
  | .unusedSpeechMeta => "queue_api:speech-meta:unused"
  | .exportLock => "buddy:speech-vector:export-lock"
  | .exportLedger => "buddy:speech-vector:export-ledger"
  | .named name => name

def reservedHeads : List (List Char) :=
  ["buddy:job-l".toList, "buddy:job-d".toList, "buddy:job-f".toList, "queue_api:e".toList,
    "speech_job:".toList, "queue_api:s".toList, "buddy:speec".toList]

def Key.Configured : Key → Prop
  | .named name => name.toList.take 11 ∉ reservedHeads
  | _ => True

theorem Key.text_injective {a b : Key} (ha : a.Configured) (hb : b.Configured)
    (h : a.text = b.text) : a = b := by
  unfold Key.text at h
  have heads := congrArg (fun text => text.toList.take 11) h
  unfold Key.Configured at ha hb
  cases a <;> cases b <;> simp [reservedHeads] at h heads ha hb ⊢ <;> simp_all

end AiBuddy.Queue
