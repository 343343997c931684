import AiBuddy.Reminders.Stores

/-!
# The reminder worker (`services/reminders/worker.py`)

`tick`, `recover` and the execution of one occurrence. The log lines are left out.
-/

namespace AiBuddy.Reminders

open Program

abbrev Working := Program Command

/-- `ReminderWorkerConfig`, and the zone database of the host. -/
structure Config where
  zones : ZoneTable
  lookaheadSeconds : Nat := 3600
  lateGraceSeconds : Nat := 300
  maxRetries : Nat := 4
  claimTtlSeconds : Nat := 60
  batchSize : Nat := 50

/-- `RETRY_DELAYS_SECONDS[min(retry_count - 1, len(RETRY_DELAYS_SECONDS) - 1)]`. -/
def retryDelaySeconds (retryCount : Nat) : Nat :=
  if retryCount ≤ 1 then 5 else if retryCount = 2 then 30 else 120

/-- `reminder.get("scheduledOccurrenceId") or occurrence_id(reminder_id, nxt)`. -/
def Reminder.occurrence (reminder : Reminder) (next : Instant) : String :=
  match reminder.scheduledOccurrenceId with
  | some scheduled => if scheduled = "" then occurrenceId reminder.id.str next else scheduled
  | none => occurrenceId reminder.id.str next

def recoverReminder (reminder : Reminder) : Working Unit :=
  match reminder.nextTriggerAtUtc with
  | none => return ()
  | some next => do
    let member := reminder.occurrence next
    let already ← issue (.hasScheduled member)
    if already then return () else issue (.schedule member (timestamp next))

def requeueExpired (now : Instant) (member : String) : Working Unit :=
  match parseOccurrenceId member with
  | none => issue (.complete member)
  | some (_, stamp) =>
    issue (.requeue member (timestamp ((parseOccurrenceStamp stamp).getD now)))

def recover (config : Config) : Working Unit := do
  let now ← issue .now
  let upcoming ← issue (.upcoming (now + config.lookaheadSeconds * second))
  forEach recoverReminder upcoming
  let expired ← issue (.expiredProcessing (timestamp now))
  forEach (requeueExpired now) expired

/-- `compute_next_trigger` for a reminder that repeats. -/
def Reminder.nextTrigger (config : Config) (reminder : Reminder) (occurrenceAt : Instant) :
    Option Instant :=
  if reminder.repetition = .once then none
  else computeNextTrigger config.zones reminder.dateKey reminder.timeLabel reminder.timezone
    reminder.repetition occurrenceAt

/-- What `_handle_success` writes. -/
def Reminder.delivery (config : Config) (reminder : Reminder) (member : String)
    (occurrenceAt now : Instant) : Delivery :=
  match reminder.nextTrigger config occurrenceAt with
  | some next => ⟨member, now, some next, some (occurrenceId reminder.id.str next), .scheduled⟩
  | none => ⟨member, now, none, none, .delivered⟩

def handleSuccess (config : Config) (reminder : Reminder) (member : String)
    (occurrenceAt now : Instant) : Working Unit := do
  match reminder.nextTrigger config occurrenceAt with
  | some next => issue (.schedule (occurrenceId reminder.id.str next) (timestamp next))
  | none => pure ()
  issue (.markDelivered reminder.id.str (reminder.delivery config member occurrenceAt now))
  issue (.complete member)

def Reminder.retries (config : Config) (reminder : Reminder) (retryable : Bool) : Bool :=
  retryable && decide (reminder.retryCount + 1 < config.maxRetries)

def handleFailure (config : Config) (reminder : Reminder) (member : String) (now : Instant)
    (retryable : Bool) : Working Unit := do
  let retryCount := reminder.retryCount + 1
  if reminder.retries config retryable then
    let retryAt := now + retryDelaySeconds retryCount * second
    issue (.markRetry reminder.id.str retryCount retryAt now)
    issue (.retryAt member (timestamp retryAt))
  else
    issue (.markFailed reminder.id.str now)
    issue (.deadLetterPush member)
    issue (.complete member)

/-- The three checks of `:167-190`, each of which completes the occurrence. -/
def Reminder.skips (reminder : Reminder) (member : String) : Bool :=
  reminder.deliveryStatus = .cancelled || reminder.deliveryStatus = .failed ||
    reminder.scheduledOccurrenceId.any (fun scheduled => scheduled ≠ "" && scheduled ≠ member) ||
    reminder.lastDeliveredOccurrenceKey = some member

/-- `max(0, int((now - occurrence_at).total_seconds()))`. -/
def lateness (now occurrenceAt : Instant) : Int := max 0 ((now - occurrenceAt).tdiv second)

def isLate (config : Config) (now occurrenceAt : Instant) : Bool :=
  lateness now occurrenceAt > config.lateGraceSeconds

def orElse (text : Option String) (default : String) : String :=
  match text with
  | some text => if text = "" then default else text
  | none => default

def Reminder.event (reminder : Reminder) (type : DeliveryType) (reminderId member : String)
    (occurrenceAt now : Instant) : TriggerEvent where
  eventId := member
  reminderId := reminderId
  userId := reminder.userId
  occurrenceAtUtc := occurrenceAt
  timezone := orElse reminder.timezone defaultTimezone
  type := type
  title := reminder.title
  message := reminder.description
  createdAt := toOccurrenceKey now
  attempt := reminder.retryCount + 1

def settle (config : Config) (claimed : Reminder) (member : String) (occurrenceAt now : Instant) :
    DispatchOutcome → Working Unit
  | .sent => handleSuccess config claimed member occurrenceAt now
  | .deliveryError retryable => handleFailure config claimed member now retryable
  | .exception => handleFailure config claimed member now true

/-- The claimed reminder is delivered, `:222`. -/
def deliver (config : Config) (claimed : Reminder) (reminderId member : String)
    (occurrenceAt now : Instant) : Working Unit := do
  match claimed.deliveryType with
  | none =>
    issue (.markFailed reminderId now)
    issue (.deadLetterPush member)
    issue (.complete member)
  | some type =>
    let outcome ← issue (.dispatch (claimed.event type reminderId member occurrenceAt now))
    settle config claimed member occurrenceAt now outcome

/-- The reminder is claimed and delivered, or found late, `:192`. -/
def claimAndDeliver (config : Config) (reminderId member : String) (occurrenceAt now : Instant) :
    Working Unit := do
  if isLate config now occurrenceAt then
    issue (.markFailed reminderId now)
    issue (.complete member)
  else
    match ← issue (.claimReminder reminderId member now) with
    | none => issue (.complete member)
    | some claimed => deliver config claimed reminderId member occurrenceAt now

/-- `parse_occurrence_id` and `parse_occurrence_stamp`: the reminder and the instant. -/
def parseMember (member : String) : Option (String × Instant) :=
  (parseOccurrenceId member).bind fun parsed =>
    (parseOccurrenceStamp parsed.2).map fun occurrenceAt => (parsed.1, occurrenceAt)

def execute (config : Config) (member : String) (now : Instant) : Working Unit := do
  match parseMember member with
  | none =>
    issue (.deadLetterPush member)
    issue (.complete member)
  | some (reminderId, occurrenceAt) =>
    match ← issue (.getById reminderId) with
    | none => issue (.complete member)
    | some reminder =>
      if reminder.skips member then issue (.complete member)
      else claimAndDeliver config reminderId member occurrenceAt now

def claimAndExecute (config : Config) (retryDue : List String) (now : Instant) (member : String) :
    Working Unit := do
  let key := if member ∈ retryDue then .retry else .schedule
  let nowTs := timestamp now
  let claimed ← issue (.claim key member nowTs (nowTs + config.claimTtlSeconds))
  if claimed then execute config member now else return ()

def tick (config : Config) : Working Unit := do
  let now ← issue .now
  let due ← issue (.dueMembers .schedule (timestamp now) config.batchSize)
  let retryDue ← issue (.dueMembers .retry (timestamp now) config.batchSize)
  forEach (claimAndExecute config retryDue now) (due ++ retryDue)

end AiBuddy.Reminders

/-!
## Runs of reminder workers

Any number of workers share the schedule and the reminders. Their calls of `recover` and `tick`
are under way at the same time, and a command of any of them may come next.
-/

namespace AiBuddy.Reminders

open Program

def Timely (s : State) : Prop :=
  ∀ member value, s.processing.score member = some value → timestamp s.clock < value

abbrev Condition := {β : Type} → Command β → State → Prop

def workerSemantics (allowed : Condition) : Semantics Command State :=
  fun command s reply s' => allowed command s ∧ Performed command s reply s' ∧ Timely s'

def Calls (_ : State) (prog : Working Unit) : Prop :=
  ∃ config, prog = recover config ∨ prog = tick config

def Elapses (s s' : State) : Prop :=
  ∃ clock, s.clock ≤ clock ∧ s' = { s with clock } ∧ Timely s'

/-- The runs in which every claimed occurrence is finished before its claim expires. -/
abbrev WorkerRun (allowed : Condition) (start : State) : Pool Command Unit State → Prop :=
  Pool.Run (workerSemantics allowed) Calls Elapses start

def Names (s : State) (member : String) (occurrenceAt : Instant) (reminder : Reminder) : Prop :=
  ∃ reminderId, parseMember member = some (reminderId, occurrenceAt) ∧
    s.find? reminderId = some reminder

/-- A reminder that may be delivered has the occurrence it is scheduled for
(`services/schedule_extraction/reminder_schedule.py:65`). -/
def Named (s : State) : Prop :=
  ∀ reminder ∈ s.reminders, reminder.deliveryStatus.claimable = true →
    ∃ current, reminder.scheduledOccurrenceId = some current ∧ current ≠ ""

structure Planned (s : State) : Prop where
  named : Named s
  apart : ∀ member, member ∈ s.schedule → member ∉ s.retry
  idle : ∀ member, member ∉ s.processing
  unsent : s.sent = []

def SparesWaiting : Condition := fun command s =>
  match command with
  | .schedule member _ => member ∉ s.retry ∧ member ∉ s.processing
  | _ => True

end AiBuddy.Reminders
