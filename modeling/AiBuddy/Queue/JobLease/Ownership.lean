import AiBuddy.Misc.History
import AiBuddy.Queue.JobLease.Scripts

/-!
# Runs of the lease scripts

Any number of workers call the four scripts in any order while time passes. The
history of a run records each call with the keyspace it met and the reply it got.
-/

namespace AiBuddy.Queue.JobLease

open Redis

/-- The lease of `logicalKey` is live and names this owner and token. -/
def Holds (db : Db Key) (logicalKey owner token : String) : Prop :=
  ∃ record, db.string? (.jobLease logicalKey) = some record ∧ ownedBy record owner token = true

def MarkedDone (db : Db Key) (logicalKey : String) : Prop :=
  (db.live (.jobDone logicalKey)).isSome = true

/-- A call of a lease script. Renew, release and complete take any lease object, also one
that was lost long ago. -/
inductive Call where
  | acquire (event : EventEnvelope) (owner messageId : String)
  | renew (lease : Lease)
  | release (lease : Lease)
  | complete (lease : Lease)

inductive Reply where
  | decision (action token owner : String)
  | flag (value : Int)
  deriving DecidableEq

def Call.eval (settings : LeaseSettings) (nowMs : Int) : Call → Script Key Reply
  | .acquire event owner messageId => do
    let (action, token, seen) ← acquireEval settings (leaseFor event owner messageId) nowMs
    return .decision action token seen
  | .renew lease => do return .flag (← renewEval settings lease nowMs)
  | .release lease => do return .flag (← releaseEval lease)
  | .complete lease => do return .flag (← completeEval settings lease)

structure CallEvent where
  before : Db Key
  call : Call
  reply : Except Error Reply

/-- One atomic script call. `nowMs` is the clock of the caller, which nothing depends on. -/
def CallStep (settings : LeaseSettings) (db : Db Key) (event : CallEvent) (db' : Db Key) : Prop :=
  event.before = db ∧ ∃ nowMs, event.call.eval settings nowMs db = (event.reply, db')

def Passes (db db' : Db Key) : Prop := ∃ millis, db' = db.advance millis

abbrev LeaseRun (settings : LeaseSettings) (start : Db Key) :=
  History (CallStep settings) Passes start

/-- A keyspace in which no job was leased or completed yet, with a counter that never
expires. -/
structure Fresh (db : Db Key) : Prop where
  lease : ∀ logicalKey, db.find (.jobLease logicalKey) = none
  done : ∀ logicalKey, db.find (.jobDone logicalKey) = none
  fence : ∀ entry, db.find .jobFence = some entry → entry.expireAt = none

/-- A lease granted by a `run` reply. -/
structure Grant where
  logicalKey : String
  owner : String
  token : String
  deriving DecidableEq

/-- The grant of one event, if it is a `run` reply. -/
def CallEvent.grant? (event : CallEvent) : Option Grant :=
  match event.call, event.reply with
  | .acquire job _ _, .ok (.decision action token owner) =>
    if action = "run" then some ⟨logicalJobKey job, owner, token⟩ else none
  | _, _ => none

def grants (history : List CallEvent) : List Grant := history.filterMap CallEvent.grant?

def lastGrant (history : List CallEvent) (logicalKey : String) : Option Grant :=
  ((grants history).filter (·.logicalKey = logicalKey)).getLast?

def Call.lease? : Call → Option Lease
  | .acquire .. => none
  | .renew lease | .release lease | .complete lease => some lease

/-- `tostring` prints the next counter value in full. -/
def Exact (db : Db Key) : Prop :=
  -Lua.exactBound < db.count .jobFence + 1 ∧ db.count .jobFence + 1 < Lua.exactBound

def CallEvent.Exact (event : CallEvent) : Prop :=
  event.call.lease? = none → JobLease.Exact event.before

/-- Tokens as the integers that `mongo_fence.lease_fence_token` reads from them. -/
def TokenLt (token token' : String) : Prop :=
  ∃ m n, Text.decimal? token = some m ∧ Text.decimal? token' = some n ∧ m < n

end AiBuddy.Queue.JobLease

/-!
## The in-process twin of the lease scripts

`apply_job_lease_eval` of `services/queue/job_lease.py:702-801`, which fakes call
in place of the Lua scripts. Its callbacks are the Redis commands themselves and
`clock` is its own `time.time()` in milliseconds.
-/

namespace AiBuddy.Queue.JobLease

open Redis

/-- The dictionary that `_parse` returns. -/
structure ParsedLease where
  owner : String
  token : String
  messageId : String
  eventId : String
  eventType : String
  attempt : String
  deriving DecidableEq

def parse (raw : Option String) : Option ParsedLease :=
  let text := raw.getD ""
  if text = "" then none
  else
    let parts := Text.split '|' text
    if parts.length < 7 ∨ parts[0]? ≠ some "v1" then none
    else some
      { owner := parts.getD 1 ""
        token := parts.getD 2 ""
        messageId := parts.getD 3 ""
        eventId := parts.getD 4 ""
        eventType := parts.getD 5 ""
        attempt := parts.getD 6 "" }

def encode (owner token messageId eventId eventType : String) (attempt clock : Int) : String :=
  "|".intercalate ["v1", owner, token, messageId, eventId, eventType, attempt.repr, clock.repr]

/-- `int(text)` for the numerals of an argument vector. -/
def pyInt (text : String) : Script Key Int :=
  match Text.decimal? text with
  | some n => .ok n
  | none => .fail (.reply "ValueError")

def pyIntOrZero (text : String) : Script Key Int := if text = "" then .ok 0 else pyInt text

def twinAcquire (doneKey leaseKey fenceKey : Key)
    (owner messageId eventId eventType attempt ttlMs : String) (clock : Int) :
    Script Key (String × String × String) := do
  let done ← get doneKey
  if done.getD "" ≠ "" then
    return ("completed", "", "")
  else
    match parse (← get leaseKey) with
    | some current =>
      if current.owner = owner ∧ current.messageId = messageId then
        -- `del pexpire` at the top unbinds the name that this branch calls
        .fail (.reply "UnboundLocalError")
      else
        return ("busy", current.token, current.owner)
    | none =>
      let token := (← incr fenceKey).repr
      let attempt ← pyIntOrZero attempt
      let ttl ← pyInt ttlMs
      setPx leaseKey (encode owner token messageId eventId eventType attempt clock) ttl
      return ("run", token, owner)

def ParsedLease.isOf (current : Option ParsedLease) (owner token : String) : Bool :=
  match current with
  | none => false
  | some current => current.owner = owner ∧ current.token = token

def twinRenew (leaseKey : Key)
    (owner token messageId eventId eventType attempt ttlMs : String) (clock : Int) :
    Script Key Int := do
  let current := parse (← get leaseKey)
  if ¬ ParsedLease.isOf current owner token then
    return 0
  else
    let attempt ← pyIntOrZero attempt
    let ttl ← pyInt ttlMs
    setPx leaseKey (encode owner token messageId eventId eventType attempt clock) ttl
    return 1

def twinRelease (leaseKey : Key) (owner token : String) : Script Key Int := do
  let current := parse (← get leaseKey)
  if ¬ ParsedLease.isOf current owner token then
    return 0
  else
    let _ ← del leaseKey
    return 1

def twinComplete (leaseKey doneKey : Key) (owner token ttlMs : String) : Script Key Int := do
  let current := parse (← get leaseKey)
  if ¬ ParsedLease.isOf current owner token then
    return 0
  else
    let ttl ← pyInt ttlMs
    setPx doneKey token ttl
    return 1

/-- `apply_job_lease_eval` on the argument vector that the caller of a script builds. -/
def applyJobLeaseEval (settings : LeaseSettings) (clock : Int) : Call → Script Key Reply
  | .acquire event owner messageId => do
    let lease := leaseFor event owner messageId
    let (action, token, seen) ← twinAcquire (.jobDone lease.logicalKey) (.jobLease lease.logicalKey)
      .jobFence lease.owner lease.messageId lease.eventId lease.eventType lease.retryCount.repr
      settings.leaseTtlMs.repr clock
    return .decision action token seen
  | .renew lease => do
    return .flag (← twinRenew (.jobLease lease.logicalKey) lease.owner lease.token lease.messageId
      lease.eventId lease.eventType lease.retryCount.repr settings.leaseTtlMs.repr clock)
  | .release lease => do
    return .flag (← twinRelease (.jobLease lease.logicalKey) lease.owner lease.token)
  | .complete lease => do
    return .flag (← twinComplete (.jobLease lease.logicalKey) (.jobDone lease.logicalKey)
      lease.owner lease.token settings.completionTtlMs.repr)

def storedRecord (db : Db Key) (logicalKey : String) : String :=
  (db.string? (.jobLease logicalKey)).getD ""

/-- The stores on which the twin goes its own way. An acquire call does so where it finds
the caller's own lease and message, and where the next token has more than fourteen
digits. The other calls do so on a record of fewer than seven parts that starts with the
caller's owner and token. -/
def Call.Diverges (db : Db Key) : Call → Prop
  | .acquire event owner messageId =>
    let lease := leaseFor event owner messageId
    let parts := splitRecord (storedRecord db lease.logicalKey)
    db.Readable (.jobDone lease.logicalKey) ∧ db.Readable (.jobLease lease.logicalKey) ∧
      (db.string? (.jobDone lease.logicalKey)).getD "" = "" ∧
      if wellFormed (storedRecord db lease.logicalKey) then
        luaPart parts 2 = some lease.owner ∧ luaPart parts 4 = some lease.messageId
      else ¬ Exact db ∧ db.count .jobFence + 1 < counterBound
  | .renew lease | .release lease | .complete lease =>
    ownedBy (storedRecord db lease.logicalKey) lease.owner lease.token = true ∧
      ¬ wellFormed (storedRecord db lease.logicalKey)

end AiBuddy.Queue.JobLease
