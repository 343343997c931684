import AiBuddy.Misc.Lua
import AiBuddy.Redis.Db
import AiBuddy.Queue.JobLease.LogicalJobKey

/-!
# The lease scripts

The four Lua scripts of `services/queue/job_lease.py:35-157` and the argument
vectors that `acquire_lease`, `renew_lease`, `release_lease` and
`remember_completion` build for them. A script is one Redis command: nothing
runs between its steps.
-/

namespace AiBuddy.Queue.JobLease

open Redis

/-- The loop of the scripts' `split`: `part` is what was read since the last separator. -/
def splitRecord.go (part : List Char) : List Char → List String
  | [] => [String.ofList part]
  | c :: rest => if c = '|' then String.ofList part :: go [] rest else go (part ++ [c]) rest

/-- `split` of the lease scripts. -/
def splitRecord (value : String) : List String := splitRecord.go [] value.toList

/-- `parts[index]`, counted from one. -/
def luaPart (parts : List String) (index : Nat) : Option String := parts[index - 1]?

/-- `tonumber(text)` where a command takes the result: a text that is no number is `nil`,
which a command refuses. -/
def tonumber (text : String) : Script Key Int :=
  match Text.decimal? text with
  | some n => .ok n
  | none => .fail (.reply "Lua redis lib command arguments must be strings or integers")

/-- The record a lease key stores, `table.concat({...}, "|")`. -/
def recordText (owner token messageId eventId eventType retryCount heartbeatMs : String) : String :=
  "|".intercalate ["v1", owner, token, messageId, eventId, eventType, retryCount, heartbeatMs]

/-- The test of renew, release and complete: the record is this owner's with this token. -/
def ownedBy (record owner token : String) : Bool :=
  let parts := splitRecord record
  luaPart parts 1 = some "v1" && luaPart parts 2 = some owner && luaPart parts 3 = some token

def wellFormed (record : String) : Bool :=
  let parts := splitRecord record
  luaPart parts 1 = some "v1" && decide (7 ≤ parts.length)

/-- `_ACQUIRE_LUA`. `KEYS` are the done, lease and fence keys, `ARGV` the other arguments. -/
def acquireLua (doneKey leaseKey fenceKey : Key)
    (owner messageId eventId eventType retryCount ttlMs nowMs : String) :
    Script Key (String × String × String) := do
  let done ← get doneKey
  if done.getD "" ≠ "" then
    return ("completed", "", "")
  else
    let current := (← get leaseKey).getD ""
    let parts := splitRecord current
    if current ≠ "" ∧ wellFormed current then
      if luaPart parts 2 = some owner ∧ luaPart parts 4 = some messageId then
        let ttl ← tonumber ttlMs
        let _ ← pexpire leaseKey ttl
        return ("duplicate", (luaPart parts 3).getD "", (luaPart parts 2).getD "")
      else
        return ("busy", (luaPart parts 3).getD "", (luaPart parts 2).getD "")
    else
      let token := Lua.tostring (← incr fenceKey)
      let ttl ← tonumber ttlMs
      setPx leaseKey (recordText owner token messageId eventId eventType retryCount nowMs) ttl
      return ("run", token, owner)

def renewLua (leaseKey : Key)
    (owner token messageId eventId eventType retryCount ttlMs nowMs : String) : Script Key Int := do
  let current := (← get leaseKey).getD ""
  if current = "" then
    return 0
  else if ¬ ownedBy current owner token then
    return 0
  else
    let ttl ← tonumber ttlMs
    setPx leaseKey (recordText owner token messageId eventId eventType retryCount nowMs) ttl
    return 1

def releaseLua (leaseKey : Key) (owner token : String) : Script Key Int := do
  let current := (← get leaseKey).getD ""
  if current = "" then
    return 0
  else if ¬ ownedBy current owner token then
    return 0
  else
    let _ ← del leaseKey
    return 1

def completeLua (leaseKey doneKey : Key) (owner token ttlMs : String) : Script Key Int := do
  let current := (← get leaseKey).getD ""
  if current = "" then
    return 0
  else if ¬ ownedBy current owner token then
    return 0
  else
    let ttl ← tonumber ttlMs
    setPx doneKey token ttl
    return 1

/-- The lease settings with the ranges that `setting.py:296-300` enforces. -/
structure LeaseSettings where
  leaseTtlSeconds : Nat := 90
  completionTtlSeconds : Nat := 86400
  lease_range : 30 ≤ leaseTtlSeconds ∧ leaseTtlSeconds ≤ 3600 := by decide
  completion_range : 300 ≤ completionTtlSeconds ∧ completionTtlSeconds ≤ 604800 := by decide

def defaultLeaseSettings : LeaseSettings := {}

def LeaseSettings.leaseTtlMs (settings : LeaseSettings) : Int := settings.leaseTtlSeconds * 1000

def LeaseSettings.completionTtlMs (settings : LeaseSettings) : Int :=
  settings.completionTtlSeconds * 1000

theorem LeaseSettings.leaseTtlMs_pos (settings : LeaseSettings) : 0 < settings.leaseTtlMs := by
  have := settings.lease_range
  unfold leaseTtlMs
  omega

theorem LeaseSettings.completionTtlMs_pos (settings : LeaseSettings) :
    0 < settings.completionTtlMs := by
  have := settings.completion_range
  unfold completionTtlMs
  omega

/-- What identifies an attempt: the `Lease` fields that go into script arguments. -/
structure Lease where
  logicalKey : String
  owner : String
  token : String
  messageId : String
  eventId : String
  eventType : String
  retryCount : Int
  deriving DecidableEq

/-- The `Lease` object that an attempt works with. `lost` and `released` say what the attempt knows
of its ownership (`:201-214`). -/
structure LeaseObject where
  lease : Lease
  lost : Bool := false
  released : Bool := false
  settled : Bool := false
  reason : String := ""
  deriving DecidableEq

/-- `_field(value, limit=80) or default`. -/
def fieldOr (text default : String) : String :=
  let cut := field (.str text) 80
  if cut ≠ "" then cut else default

theorem bar_notMem_fieldOr {text : String} {default : String} (h : '|' ∉ default.toList) :
    '|' ∉ (fieldOr text default).toList := by
  unfold fieldOr
  simp only
  split
  · exact bar_notMem_field _ _
  · exact h

/-- The lease that `acquire_lease` asks for. The script's answer fills in the token. -/
def leaseFor (event : EventEnvelope) (owner messageId : String) : Lease where
  logicalKey := logicalJobKey event
  owner := fieldOr owner "worker"
  token := ""
  messageId := field (.str messageId) 80
  eventId := field (.str event.eventId) 80
  eventType := fieldOr event.eventType "event"
  retryCount := event.attempt

@[simp] theorem leaseFor_logicalKey (event : EventEnvelope) (owner messageId : String) :
    (leaseFor event owner messageId).logicalKey = logicalJobKey event := by
  simp only [leaseFor]

theorem bar_notMem_leaseFor_owner (event : EventEnvelope) (owner messageId : String) :
    '|' ∉ (leaseFor event owner messageId).owner.toList := by
  have hdefault : '|' ∉ "worker".toList := by decide
  simpa only [leaseFor] using bar_notMem_fieldOr hdefault

/-- The script call of `acquire_lease`. -/
def acquireEval (settings : LeaseSettings) (lease : Lease) (nowMs : Int) :
    Script Key (String × String × String) :=
  acquireLua (.jobDone lease.logicalKey) (.jobLease lease.logicalKey) .jobFence
    lease.owner lease.messageId lease.eventId lease.eventType lease.retryCount.repr
    settings.leaseTtlMs.repr nowMs.repr

/-- The script call of `renew_lease`. -/
def renewEval (settings : LeaseSettings) (lease : Lease) (nowMs : Int) : Script Key Int :=
  renewLua (.jobLease lease.logicalKey) lease.owner lease.token lease.messageId lease.eventId
    lease.eventType lease.retryCount.repr settings.leaseTtlMs.repr nowMs.repr

/-- The script call of `release_lease`. -/
def releaseEval (lease : Lease) : Script Key Int :=
  releaseLua (.jobLease lease.logicalKey) lease.owner lease.token

/-- The script call of `remember_completion`. -/
def completeEval (settings : LeaseSettings) (lease : Lease) : Script Key Int :=
  completeLua (.jobLease lease.logicalKey) (.jobDone lease.logicalKey) lease.owner lease.token
    settings.completionTtlMs.repr

end AiBuddy.Queue.JobLease
