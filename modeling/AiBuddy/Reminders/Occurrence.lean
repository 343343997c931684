import AiBuddy.Misc.Calendar
import AiBuddy.Misc.Text

/-!
# Occurrences of reminders (`services/reminders/occurrence.py`)

An occurrence is named by its reminder and by the second at which it is due. Instants are counted
in microseconds, and the zone database of the host is a parameter.
-/

namespace AiBuddy.Reminders

/-- An aware `datetime`: the microseconds since the first of January 1970. -/
abbrev Instant := Int

def second : Int := 1000000

def day : Int := 86400 * second

def epochOrdinal : Int := 719163

def timestamp (value : Instant) : Int := value.tdiv second

def ordinalOf (value : Int) : Int := value / day + epochOrdinal

def dateOf (value : Int) : Calendar.Date := Calendar.ofOrdinal (ordinalOf value)

/-- `datetime(year, month, day, hour, minute, second)`. -/
def ofCivil (date : Calendar.Date) (hour minute seconds : Nat) : Int :=
  (date.toOrdinal - epochOrdinal) * day + (hour * 3600 + minute * 60 + seconds) * second

/-- What the host knows of a time zone: the offset at an instant, with the fold of the local time
there, and the offset at a local time with a fold. Offsets are whole seconds. -/
structure Zone where
  offsetAt : Instant → Int × Bool
  localOffset : Int → Bool → Int

namespace Zone

/-- `value.astimezone(zone)`: the local time, counted like an instant, and its fold. -/
def toLocal (zone : Zone) (value : Instant) : Int × Bool :=
  (value + (zone.offsetAt value).1 * second, (zone.offsetAt value).2)

def toUtc (zone : Zone) (wall : Int) (fold : Bool) : Instant :=
  wall - zone.localOffset wall fold * second

end Zone

def utc : Zone where
  offsetAt _ := (0, false)
  localOffset _ _ := 0

/-- `ZoneInfo(name)`, where that is no error, and `ZoneInfo(DEFAULT_TIMEZONE)`. -/
structure ZoneTable where
  zoneInfo : String → Option Zone
  defaultZone : Zone

def defaultTimezone : String := "Asia/Kolkata"

def resolveZone (zones : ZoneTable) (name : Option String) : Zone :=
  let stripped := Text.strip (name.getD "")
  let raw := if stripped = "" then defaultTimezone else stripped
  match zones.zoneInfo raw with
  | some zone => zone
  | none =>
    if Text.lower raw ∈ ["utc", "gmt", "etc/utc"] then utc else zones.defaultZone

/-- `parse_time_label(time_label)`: hour and minute of `9:05 PM`. -/
def parseTimeLabel (timeLabel : String) : Option (Nat × Nat) := do
  let cs := (Text.strip timeLabel).toList
  let ds := cs.takeWhile (· ≠ ':')
  let hour ← Text.digits? ds
  guard (1 ≤ hour ∧ hour ≤ 12 ∧ ds.head? ≠ some '0')
  match cs.dropWhile (· ≠ ':') with
  | _ :: tens :: ones :: rest =>
    let minute ← Text.digits? [tens, ones]
    guard (minute ≤ 59)
    let period := match rest with
      | blank :: period => if Text.isSpace blank then period else rest
      | [] => []
    match period.map Char.toUpper with
    | ['P', 'M'] => some (if hour < 12 then hour + 12 else hour, minute)
    | ['A', 'M'] => some (if hour = 12 then 0 else hour, minute)
    | _ => none
  | _ => none

/-- `year, month, day = [int(part) for part in date_key.split("-")]` and the `datetime` of it. -/
def parseDateKey (dateKey : String) : Option Calendar.Date :=
  match (Text.split '-' dateKey).map Text.int? with
  | [some year, some month, some day] =>
    let date : Calendar.Date := ⟨year, month.toNat, day.toNat⟩
    if 1 ≤ year ∧ year ≤ 9999 ∧ 0 ≤ month ∧ 0 ≤ day ∧ date.Valid then some date else none
  | _ => none

def zonedLocalToUtc (zones : ZoneTable) (dateKey timeLabel : String) (timezone : Option String) :
    Option Instant := do
  let date ← parseDateKey dateKey
  let (hour, minute) ← parseTimeLabel timeLabel
  return (resolveZone zones timezone).toUtc (ofCivil date hour minute 0) false

inductive Repeat where
  | once
  | daily
  | weekly
  | weekdays
  | monthly
  | other (text : String)
  deriving DecidableEq

/-- `while nxt.weekday() >= 5: nxt = nxt + timedelta(days=1)`. Two days are a weekend. -/
def skipWeekend : Nat → Int → Int
  | 0, wall => wall
  | further + 1, wall =>
    if Calendar.weekday (ordinalOf wall) ≥ 5 then skipWeekend further (wall + day) else wall

def daysInMonth (year : Int) (month : Nat) : Nat :=
  let next : Calendar.Date := if month = 12 then ⟨year + 1, 1, 1⟩ else ⟨year, month + 1, 1⟩
  (Calendar.ofOrdinal (next.toOrdinal - 1)).day

def nextMonth (wall : Int) : Int :=
  let date := dateOf wall
  let year := if date.month + 1 > 12 then date.year + 1 else date.year
  let month := if date.month + 1 > 12 then 1 else date.month + 1
  let next : Calendar.Date := ⟨year, month, min date.day (daysInMonth year month)⟩
  (next.toOrdinal - epochOrdinal) * day + wall % day

/-- `add_repeat`. An addition to a local time drops its fold, a replacement
keeps it. -/
def addRepeat (zones : ZoneTable) (occurrenceAt : Instant) (repetition : Repeat)
    (timezone : Option String) : Option Instant :=
  let zone := resolveZone zones timezone
  let (wall, fold) := zone.toLocal occurrenceAt
  match repetition with
  | .daily => some (zone.toUtc (wall + day) false)
  | .weekly => some (zone.toUtc (wall + 7 * day) false)
  | .weekdays => some (zone.toUtc (skipWeekend 2 (wall + day)) false)
  | .monthly => some (zone.toUtc (nextMonth wall) fold)
  | .once | .other _ => none

/-- The loop of `compute_next_trigger`: up to `further` repetitions. -/
def repeatUntil (zones : ZoneTable) (timezone : Option String) (repetition : Repeat)
    (after : Instant) : Nat → Instant → Option Instant
  | 0, _ => none
  | further + 1, candidate =>
    match addRepeat zones candidate repetition timezone with
    | none => none
    | some next =>
      if next ≤ candidate then none
      else if next > after then some next
      else repeatUntil zones timezone repetition after further next

def computeNextTrigger (zones : ZoneTable) (dateKey timeLabel : String) (timezone : Option String)
    (repetition : Repeat) (after : Instant) : Option Instant :=
  match zonedLocalToUtc zones dateKey timeLabel timezone with
  | none => none
  | some candidate =>
    if candidate > after ∨ repetition = .once then some candidate
    else repeatUntil zones timezone repetition after 400 candidate

def twoDigits (n : Nat) : String := if n < 10 then "0" ++ n.repr else n.repr

def toOccurrenceKey (value : Instant) : String :=
  let date := dateOf value
  let seconds := (value % day / second).toNat
  date.year.repr ++ "-" ++ twoDigits date.month ++ "-" ++ twoDigits date.day ++ "T" ++
    twoDigits (seconds / 3600) ++ ":" ++ twoDigits (seconds % 3600 / 60) ++ ":" ++
    twoDigits (seconds % 60) ++ "Z"

def occurrenceId (reminderId : String) (occurrenceAt : Instant) : String :=
  reminderId ++ ":" ++ toOccurrenceKey occurrenceAt

def parseOccurrenceId (value : String) : Option (String × String) :=
  let reminderId := value.toList.takeWhile (· ≠ ':')
  match value.toList.dropWhile (· ≠ ':') with
  | [] => none
  | _ :: stamp =>
    if reminderId.isEmpty || stamp.isEmpty then none
    else some (.ofList reminderId, .ofList stamp)

/-- One field of `strptime`: the digits up to a separator, which may be in either case. -/
def field? (separator : Char) (widths : List Nat) (low high : Nat) (cs : List Char) :
    Option (Nat × List Char) :=
  let ds := cs.takeWhile fun c => c.toLower ≠ separator
  match cs.dropWhile fun c => c.toLower ≠ separator with
  | [] => none
  | _ :: rest =>
    if ds.length ∈ widths then
      ((Text.digits? ds).filter fun n => low ≤ n ∧ n ≤ high).map fun n => (n, rest)
    else none

def blankToZero : List Char → List Char
  | ' ' :: cs => '0' :: cs
  | cs => cs

def parseOccurrenceStamp (stamp : String) : Option Instant := do
  let (year, cs) ← field? '-' [4] 1 9999 stamp.toList
  let (month, cs) ← field? '-' [1, 2] 1 12 cs
  let (dayOfMonth, cs) ← field? 't' [1, 2] 1 31 (blankToZero cs)
  let (hour, cs) ← field? ':' [1, 2] 0 23 cs
  let (minute, cs) ← field? ':' [1, 2] 0 59 cs
  let (seconds, cs) ← field? 'z' [1, 2] 0 59 cs
  let date : Calendar.Date := ⟨year, month, dayOfMonth⟩
  guard (cs = [] ∧ date.Valid)
  return ofCivil date hour minute seconds

example : parseOccurrenceStamp "2026-09-04T09:05:00Z" = some 1788512700000000 := by decide

inductive DeliveryType where
  | normalNotification
  | alarmNotification
  | aiCall
  deriving DecidableEq

structure TriggerEvent where
  version : Nat := 1
  eventId : String
  reminderId : String
  userId : String
  occurrenceAtUtc : Instant
  timezone : String
  type : DeliveryType
  title : String
  message : String
  createdAt : String
  attempt : Nat := 1

end AiBuddy.Reminders
