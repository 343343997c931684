import AiBuddy.Llm.Message
import AiBuddy.Misc.Packing

/-!
# The quota guard

`services/llm/quota.py`: the reservations of requests and tokens in the last minute and in the
current UTC day, for each key. Instants are microseconds since the epoch.
-/

namespace AiBuddy.Llm

structure ProviderQuota where
  rpm : Option Nat := none
  rpd : Option Nat := none
  tpm : Option Nat := none
  tpd : Option Nat := none
deriving DecidableEq

structure QuotaWindow where
  minuteRequests : List Int := []
  minuteTokens : List (Int × Nat) := []
  day : Int
  dayRequests : Nat := 0
  dayTokens : Nat := 0
deriving DecidableEq

/-- The sixty seconds of `_trim_minute`. -/
def minuteSpan : Int := 60000000

/-- `now.date()`, as the number of the day. -/
def dayOf (now : Int) : Int := now / 86400000000

/-- `LLMProviderError` as `reserve` raises it. -/
structure QuotaError where
  message : String
  retryable : Bool
  statusCode : Option Int
  failureReason : FailureReason
deriving DecidableEq

/-- The error for one of the limits, `:41`. -/
def limitReached (key limit : String) : QuotaError where
  message := key ++ " quota guard blocked request: " ++ limit ++ " limit reached"
  retryable := true
  statusCode := some 429
  failureReason := .quotaUnavailable

namespace QuotaWindow

variable (window : QuotaWindow)

def resetIfNewDay (now : Int) : QuotaWindow :=
  if window.day = dayOf now then window else { day := dayOf now }

def trimMinute (now : Int) : QuotaWindow :=
  { window with
    minuteRequests := window.minuteRequests.dropWhile fun time => time < now - minuteSpan
    minuteTokens := Sliding.expire Prod.fst (now - minuteSpan) window.minuteTokens }

def minuteTokenTotal : Nat := Sliding.total Prod.snd window.minuteTokens

/-- The first limit that blocks the request, `:40` to `:67`. -/
def blocked (key : String) (quota : ProviderQuota) (estimatedTokens : Nat) : Option QuotaError :=
  if quota.rpm.any (· ≤ window.minuteRequests.length) then some (limitReached key "RPM")
  else if quota.rpd.any (· ≤ window.dayRequests) then some (limitReached key "RPD")
  else if quota.tpm.any (· < window.minuteTokenTotal + estimatedTokens) then
    some (limitReached key "TPM")
  else if quota.tpd.any (· < window.dayTokens + estimatedTokens) then
    some (limitReached key "TPD")
  else none

/-- The entries of a granted request, `:69`. -/
def record (now : Int) (estimatedTokens : Nat) : QuotaWindow :=
  { window with
    minuteRequests := window.minuteRequests ++ [now]
    minuteTokens := window.minuteTokens ++ [(now, estimatedTokens)]
    dayRequests := window.dayRequests + 1
    dayTokens := window.dayTokens + estimatedTokens }

@[simp] theorem record_day (now : Int) (estimatedTokens : Nat) :
    (window.record now estimatedTokens).day = window.day := rfl

end QuotaWindow

structure QuotaGuard where
  windows : String → Option QuotaWindow := fun _ => none

namespace QuotaGuard

variable (guard : QuotaGuard)

/-- `self._windows.setdefault(key, _QuotaWindow())`. -/
def window (key : String) (now : Int) : QuotaWindow :=
  (guard.windows key).getD { day := dayOf now }

def set (key : String) (window : QuotaWindow) : QuotaGuard :=
  ⟨fun other => if other = key then some window else guard.windows other⟩

/-- The window of the key without what has expired, `:36` to `:38`. -/
def current (key : String) (now : Int) : QuotaWindow :=
  ((guard.window key now).resetIfNewDay now).trimMinute now

/-- `reserve(key, quota, estimated_tokens)`: the guard afterwards, and the error. -/
def reserve (key : String) (quota : Option ProviderQuota) (estimatedTokens : Nat) (now : Int) :
    QuotaGuard × Option QuotaError :=
  match quota with
  | none => (guard, none)
  | some quota =>
    let window := guard.current key now
    match window.blocked key quota estimatedTokens with
    | some error => (guard.set key window, some error)
    | none => (guard.set key (window.record now estimatedTokens), none)

end QuotaGuard

/-- A call of `reserve`. -/
structure Reservation where
  key : String
  now : Int
  estimatedTokens : Nat
deriving DecidableEq

structure QuotaRun where
  guard : QuotaGuard := {}
  granted : List Reservation := []

def QuotaRun.reserve (quotas : String → Option ProviderQuota) (run : QuotaRun)
    (call : Reservation) : QuotaRun :=
  let answer := run.guard.reserve call.key (quotas call.key) call.estimatedTokens call.now
  { guard := answer.1
    granted := if answer.2.isNone then run.granted ++ [call] else run.granted }

def reserveAll (quotas : String → Option ProviderQuota) (calls : List Reservation) : QuotaRun :=
  calls.foldl (QuotaRun.reserve quotas) {}

def QuotaRun.on (key : String) (run : QuotaRun) : List Reservation :=
  run.granted.filter (·.key = key)

end AiBuddy.Llm
