import Mathlib.Data.List.Sort
import Mathlib.Data.String.Basic
import AiBuddy.Reminders.Occurrence

/-!
# Source scopes (`services/mindmap/source_scope.py`)

Which days of a space a mind map reads, with the bounds of a day of
`services/daily_briefing/timezones.py`. `ZoneInfo` and `str.casefold` are parameters, and the digits
of a date are the ASCII ones. Filters and labels are left out.
-/

namespace AiBuddy.Mindmap

open Reminders (Zone day ofCivil epochOrdinal)

structure ZoneHost where
  zoneInfo : String → Option Zone
  casefold : String → String

def ist : Zone where
  offsetAt _ := (19800, false)
  localOffset _ _ := 19800

def fixedOffset? (key : String) : Option Zone :=
  if key ∈ ["asia/kolkata", "asia/calcutta", "ist", "india"] then some ist
  else if key ∈ ["utc", "etc/utc", "gmt"] then some Reminders.utc
  else none

/-- `(name or DEFAULT_TIMEZONE).strip() or DEFAULT_TIMEZONE`. -/
def zoneName (name : Option String) : String :=
  let stripped := Text.strip (name.getD "")
  if stripped = "" then Reminders.defaultTimezone else stripped

def resolveZone (host : ZoneHost) (name : String) : Option Zone :=
  let name := zoneName (some name)
  match host.zoneInfo name with
  | some zone => some zone
  | none =>
    let key := String.ofList ((host.casefold name).toList.filter (· ≠ ' '))
    (fixedOffset? key).or (if name = Reminders.defaultTimezone then some ist else none)

inductive ScopeError where
  | valueError (message : String)
  | overflowError
  deriving DecidableEq

/-- The fields of a text `YYYY-MM-DD`, `DATE_KEY_PATTERN`. -/
def dateFields? (dateKey : String) : Option (Nat × Nat × Nat) :=
  match dateKey.toList with
  | [y₁, y₂, y₃, y₄, '-', m₁, m₂, '-', d₁, d₂] => do
    let year ← Text.digits? [y₁, y₂, y₃, y₄]
    let month ← Text.digits? [m₁, m₂]
    let dayOfMonth ← Text.digits? [d₁, d₂]
    return (year, month, dayOfMonth)
  | _ => none

/-- `datetime.fromisoformat(date_key)`, where that is no error. -/
def fromIsoformat (dateKey : String) : Option Calendar.Date := do
  let (year, month, dayOfMonth) ← dateFields? dateKey
  let date : Calendar.Date := ⟨year, month, dayOfMonth⟩
  if 1 ≤ year ∧ date.Valid then some date else none

/-- What a `datetime` can be, from `datetime.min` to `datetime.max`. -/
def Representable (value : Int) : Prop :=
  (1 - epochOrdinal) * day ≤ value ∧ value < (3652060 - epochOrdinal) * day

instance (value : Int) : Decidable (Representable value) :=
  inferInstanceAs (Decidable (_ ∧ _))

/-- `date_key_for`, before it is written as a text. -/
def dateKeyFor (zone : Zone) (value : Int) : Calendar.Date :=
  Reminders.dateOf (zone.toLocal value).1

abbrev Window := Int × Int

def localDayBoundsUtc (zone : Zone) (dateKey : String) : Except ScopeError Window :=
  match fromIsoformat dateKey with
  | none => .error (.valueError s!"Invalid isoformat string: '{dateKey}'")
  | some date =>
    let start := ofCivil date 0 0 0
    let stop := start + day
    if Representable stop ∧ Representable (zone.toUtc start false) ∧
        Representable (zone.toUtc stop false) then
      .ok (zone.toUtc start false, zone.toUtc stop false)
    else .error .overflowError

structure SourceScope where
  mode : String := "space"
  dates : List String := []
  timeZone : String := Reminders.defaultTimezone
  windows : List Window := []
  deriving DecidableEq

/-- The body of the loop of `_merged_windows`, with the latest window first. -/
def addWindow (merged : List Window) (window : Window) : List Window :=
  match merged with
  | last :: rest => if last.2 = window.1 then (last.1, window.2) :: rest else window :: merged
  | [] => [window]

def mergedWindows (zone : Zone) (dates : List String) : Except ScopeError (List Window) :=
  (dates.mapM (localDayBoundsUtc zone)).map fun windows => (windows.foldl addWindow []).reverse

def cleanFrom : List String → List String → Except ScopeError (List String)
  | [], cleaned => .ok cleaned
  | item :: raw, cleaned =>
    let dateKey := Text.strip item
    if dateKey = "" ∨ dateKey ∈ cleaned then cleanFrom raw cleaned
    else if (dateFields? dateKey).isNone then .error (.valueError "Each date must be YYYY-MM-DD.")
    else cleanFrom raw (cleaned ++ [dateKey])

/-- What `_clean_dates` reads: the dates, and then the date. -/
def rawDates (date : Option String) (dates : List String) : List String :=
  dates ++ (date.filter (· ≠ "")).toList

def cleanDates (date : Option String) (dates : List String) : Except ScopeError (List String) :=
  (cleanFrom (rawDates date dates) []).map fun cleaned => cleaned.insertionSort (· ≤ ·)

/-- `parse_source_scope` from the cleaned dates on. -/
def scopeOf (host : ZoneHost) (timeZone : Option String) (selected : List String) :
    Except ScopeError SourceScope :=
  if selected = [] then .error (.valueError "Select at least one date.")
  else if selected.length > 62 then .error (.valueError "Select at most 62 days.")
  else
    match resolveZone host (zoneName timeZone) with
    | none => .error (.valueError s!"Unsupported IANA timezone: {zoneName timeZone}")
    | some zone => (mergedWindows zone selected).map fun windows =>
      { mode := "date", dates := selected, timeZone := zoneName timeZone, windows }

def parseSourceScope (host : ZoneHost) (scope date timeZone : Option String)
    (dates : List String) : Except ScopeError SourceScope :=
  let stripped := Text.lower (Text.strip (scope.getD ""))
  let mode := if stripped = "" then "space" else stripped
  if mode = "space" ∨ mode = "all" then .ok {}
  else if mode ≠ "date" then .error (.valueError "scope must be 'space' or 'date'.")
  else cleanDates date dates >>= scopeOf host timeZone

structure StoredScope where
  mode : Option String := none
  date : Option String := none
  dates : Option (List String) := none
  timeZone : Option String := none

def SourceScope.asDocument (scope : SourceScope) : StoredScope :=
  if scope.mode ≠ "date" ∨ scope.dates = [] then { mode := some "space" }
  else { mode := some "date", dates := some scope.dates, timeZone := some scope.timeZone }

def scopeFromStored (host : ZoneHost) (raw : StoredScope) : Except ScopeError SourceScope :=
  if (raw.mode.filter (· ≠ "")).getD "space" ≠ "date" then .ok {}
  else parseSourceScope host (some "date") raw.date raw.timeZone (raw.dates.getD [])

end AiBuddy.Mindmap
