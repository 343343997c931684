import AiBuddy.Misc.Program
import AiBuddy.Redis.SortedSet
import AiBuddy.Conversation.SttRequests
import AiBuddy.Reminders.Occurrence

/-!
# The schedule in Redis and the reminders in Mongo

`RedisScheduleStore` (`services/reminders/schedule_store.py:102`), `MongoReminderStore`
(`services/reminders/mongo_store.py:80`) and the dispatcher, as commands on one state. A pipeline
is a transaction.
-/

namespace AiBuddy.Reminders

open Redis Program

/-- `_id_filter(reminder_id)`: the text of the `_id` that it looks for. A text
that is one of an ObjectId means the ObjectId. -/
def idFilter (reminderId : String) : String :=
  if Conversation.ObjectId.isValid reminderId then Text.lower reminderId else reminderId

/-- The `_id` of a reminder: an ObjectId, or a text that is not one of an ObjectId. It can be read
back from the id of an occurrence. -/
structure ReminderId where
  str : String
  canonical : idFilter str = str := by decide
  ne_empty : str.toList ≠ [] := by decide
  colon_notMem : ':' ∉ str.toList := by decide
  deriving DecidableEq

theorem ReminderId.ext {id id' : ReminderId} (h : id.str = id'.str) : id = id' := by
  cases id
  cases id'
  cases h
  rfl

inductive DeliveryStatus where
  | scheduled
  | triggering
  | retryPending
  | delivered
  | failed
  | cancelled
  | other (text : String)
  deriving DecidableEq

/-- `CLAIMABLE_STATUSES`. -/
def DeliveryStatus.claimable : DeliveryStatus → Bool
  | .scheduled | .retryPending | .triggering => true
  | _ => false

/-- A document of `reminders`. A field that is missing, null or empty is `none` where the code
does not tell these apart. -/
structure Reminder where
  id : ReminderId
  userId : String
  deliveryStatus : DeliveryStatus
  scheduledOccurrenceId : Option String := none
  lastDeliveredOccurrenceKey : Option String := none
  nextTriggerAtUtc : Option Instant := none
  lastTriggerAtUtc : Option Instant := none
  retryCount : Nat := 0
  retryAtUtc : Option Instant := none
  updatedAt : Option Instant := none
  dateKey : String := ""
  timeLabel : String := ""
  timezone : Option String := none
  repetition : Repeat := .once
  deliveryType : Option DeliveryType := none
  title : String := ""
  description : String := ""
  deriving DecidableEq

def Reminder.key (reminder : Reminder) : String := reminder.id.str

structure State where
  clock : Instant
  schedule : SortedSet := .empty
  retry : SortedSet := .empty
  processing : SortedSet := .empty
  deadLetter : List String := []
  reminders : List Reminder
  /-- What `dispatch` has sent, latest first. -/
  sent : List TriggerEvent := []
  ids_nodup : (reminders.map Reminder.key).Nodup := by decide

/-- `KEYS[1]` of the claim, and the key of `due_members`. -/
inductive ZSetKey where
  | schedule
  | retry
  deriving DecidableEq

namespace State

def zset (s : State) : ZSetKey → SortedSet
  | .schedule => s.schedule
  | .retry => s.retry

def find? (s : State) (reminderId : String) : Option Reminder :=
  Keyed.find? Reminder.key (idFilter reminderId) s.reminders

def dueMembers (s : State) (key : ZSetKey) (nowTs : Int) (limit : Nat) : List String :=
  ((s.zset key).rangeByScore 0 nowTs).take limit

/-- `CLAIM_LUA` succeeds. -/
def claims (s : State) (key : ZSetKey) (member : String) (nowTs : Int) : Bool :=
  match (s.zset key).score member with
  | none => false
  | some score => score ≤ nowTs

def claimed (s : State) (key : ZSetKey) (member : String) (claimUntil : Int) : State :=
  let processing := s.processing.add member claimUntil
  match key with
  | .schedule => { s with schedule := s.schedule.remove member, processing }
  | .retry => { s with retry := s.retry.remove member, processing }

def scheduled (s : State) (member : String) (score : Int) : State :=
  { s with schedule := s.schedule.add member score }

def retryAt (s : State) (member : String) (score : Int) : State :=
  { s with processing := s.processing.remove member, retry := s.retry.add member score }

def complete (s : State) (member : String) : State :=
  { s with
    schedule := s.schedule.remove member
    processing := s.processing.remove member
    retry := s.retry.remove member }

def requeue (s : State) (member : String) (score : Int) : State :=
  { s with processing := s.processing.remove member, schedule := s.schedule.add member score }

def update (s : State) (reminderId : String) (change : Reminder → Reminder)
    (hid : ∀ reminder, (change reminder).key = reminder.key) : State :=
  { s with
    reminders := Keyed.modify Reminder.key (idFilter reminderId) (fun _ => true) change s.reminders
    ids_nodup := by
      rw [Keyed.map_modify hid]
      exact s.ids_nodup }

end State

/-- `{"$set": {"deliveryStatus": "TRIGGERING", "updatedAt": now}}`. -/
def Reminder.triggering (now : Instant) (reminder : Reminder) : Reminder :=
  { reminder with deliveryStatus := .triggering, updatedAt := some now }

def Reminder.claimable (occurrence : String) (reminder : Reminder) : Bool :=
  reminder.lastDeliveredOccurrenceKey ≠ some occurrence && reminder.deliveryStatus.claimable

/-- What `mark_delivered` writes. -/
structure Delivery where
  occurrence : String
  now : Instant
  nextTrigger : Option Instant
  nextOccurrenceId : Option String
  status : DeliveryStatus

def Reminder.delivered (delivery : Delivery) (reminder : Reminder) : Reminder :=
  { reminder with
    lastDeliveredOccurrenceKey := some delivery.occurrence
    lastTriggerAtUtc := some delivery.now
    deliveryStatus := delivery.status
    retryCount := 0
    retryAtUtc := none
    nextTriggerAtUtc := delivery.nextTrigger
    scheduledOccurrenceId := delivery.nextOccurrenceId
    updatedAt := some delivery.now }

def Reminder.retrying (retryCount : Nat) (retryAt now : Instant) (reminder : Reminder) : Reminder :=
  { reminder with
    deliveryStatus := .retryPending
    retryCount
    retryAtUtc := some retryAt
    updatedAt := some now }

def Reminder.failed (now : Instant) (reminder : Reminder) : Reminder :=
  { reminder with deliveryStatus := .failed, updatedAt := some now }

def Reminder.upcoming (untilAt : Instant) (reminder : Reminder) : Bool :=
  (reminder.deliveryStatus = .scheduled || reminder.deliveryStatus = .retryPending) &&
    reminder.nextTriggerAtUtc.any (· ≤ untilAt)

/-- What `dispatch` comes to. -/
inductive DispatchOutcome where
  | sent
  | deliveryError (retryable : Bool)
  | exception
  deriving DecidableEq

inductive Command : Type → Type 1 where
  | now : Command Instant
  | dueMembers (key : ZSetKey) (nowTs : Int) (limit : Nat) : Command (List String)
  | claim (key : ZSetKey) (member : String) (nowTs claimUntil : Int) : Command Bool
  | schedule (member : String) (score : Int) : Command Unit
  | retryAt (member : String) (score : Int) : Command Unit
  | complete (member : String) : Command Unit
  | deadLetterPush (payload : String) : Command Unit
  | expiredProcessing (nowTs : Int) : Command (List String)
  | requeue (member : String) (score : Int) : Command Unit
  | hasScheduled (member : String) : Command Bool
  | getById (reminderId : String) : Command (Option Reminder)
  | claimReminder (reminderId occurrence : String) (now : Instant) : Command (Option Reminder)
  | markDelivered (reminderId : String) (delivery : Delivery) : Command Unit
  | markRetry (reminderId : String) (retryCount : Nat) (retryAt now : Instant) : Command Unit
  | markFailed (reminderId : String) (now : Instant) : Command Unit
  | upcoming (untilAt : Instant) : Command (List Reminder)
  | dispatch (event : TriggerEvent) : Command DispatchOutcome

/-- What a command answers and does, with `outcome` for the dispatcher. -/
def answer (outcome : TriggerEvent → DispatchOutcome) {β : Type} (command : Command β)
    (s : State) : β × State :=
  match command with
  | .now => (s.clock, s)
  | .dueMembers key nowTs limit => (s.dueMembers key nowTs limit, s)
  | .claim key member nowTs claimUntil =>
    if s.claims key member nowTs then (true, s.claimed key member claimUntil) else (false, s)
  | .schedule member score => ((), s.scheduled member score)
  | .retryAt member score => ((), s.retryAt member score)
  | .complete member => ((), s.complete member)
  | .deadLetterPush payload => ((), { s with deadLetter := payload :: s.deadLetter })
  | .expiredProcessing nowTs => (s.processing.rangeByScore 0 nowTs, s)
  | .requeue member score => ((), s.requeue member score)
  | .hasScheduled member => (decide (member ∈ s.schedule), s)
  | .getById reminderId => (s.find? reminderId, s)
  | .claimReminder reminderId occurrence now =>
    match (s.find? reminderId).filter (Reminder.claimable occurrence) with
    | none => (none, s)
    | some reminder =>
      (some (reminder.triggering now),
        s.update reminderId (Reminder.triggering now) fun _ => rfl)
  | .markDelivered reminderId delivery =>
    ((), s.update reminderId (Reminder.delivered delivery) fun _ => rfl)
  | .markRetry reminderId retryCount retryAt now =>
    ((), s.update reminderId (Reminder.retrying retryCount retryAt now) fun _ => rfl)
  | .markFailed reminderId now =>
    ((), s.update reminderId (Reminder.failed now) fun _ => rfl)
  | .upcoming untilAt => ((s.reminders.filter (Reminder.upcoming untilAt)).take 5000, s)
  | .dispatch event =>
    match outcome event with
    | .sent => (.sent, { s with sent := event :: s.sent })
    | other => (other, s)

def Performed {β : Type} (command : Command β) (s : State) (reply : β) (s' : State) : Prop :=
  ∃ outcome, answer outcome command s = (reply, s')

end AiBuddy.Reminders
