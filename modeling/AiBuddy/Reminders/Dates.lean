import AiBuddy.Misc.Pattern
import AiBuddy.Misc.Regex
import AiBuddy.Reminders.Occurrence

/-!
# Dates and times in spoken text (`services/reminders/dates.py`)

`parse_date` and `parse_time` with their patterns. What Python reads from the Unicode tables is a
parameter. A date stands for the `datetime` of that day: the time of day is never looked at.
-/

namespace AiBuddy.Reminders

open Calendar (Date)
open Regex

/-- The classes `\w` and `\d` of `re`, the value of a digit for `int`, and `str.casefold` of one
character, with what they are on ASCII. -/
structure CharTables where
  isWord : Char → Bool
  isDigit : Char → Bool
  digitValue : Char → Nat
  casefold : Char → List Char
  digitValue_lt : ∀ c, digitValue c < 10
  isWord_ascii : ∀ c : Char, c.toNat < 128 → isWord c = (c.isAlphanum || c = '_')
  isDigit_ascii : ∀ c : Char, c.toNat < 128 → isDigit c = c.isDigit
  digitValue_ascii : ∀ c : Char, c.isDigit = true → digitValue c = c.toNat - 48
  casefold_ascii : ∀ c : Char, c.toNat < 128 → casefold c = [c.toLower]

def asciiTables : CharTables where
  isWord c := c.isAlphanum || c = '_'
  isDigit c := c.isDigit
  digitValue c := if c.isDigit then c.toNat - 48 else 0
  casefold c := [c.toLower]
  digitValue_lt c := by
    split
    case isTrue h =>
      simp only [Char.isDigit, Bool.and_eq_true, decide_eq_true_eq] at h
      have hle : c.toNat ≤ 57 := h.2
      omega
    case isFalse => omega
  isWord_ascii _ _ := rfl
  isDigit_ascii _ _ := rfl
  digitValue_ascii _ h := if_pos h
  casefold_ascii _ _ := rfl

variable (tables : CharTables)

/-- `int(text)` of a run of digits. -/
def number (ds : List Char) : Nat := ds.foldl (fun n c => 10 * n + tables.digitValue c) 0

def casefold (cs : List Char) : List Char := cs.flatMap tables.casefold

/-- `" ".join((text or "").casefold().split())`, `:167`. -/
def folded (text : String) : List Char :=
  (" ".intercalate (Text.fields (.ofList (casefold tables text.toList)))).toList

inductive Part where
  | day
  | month
  | year
  | days
  | hour
  | minute
  | meridiem
  | periodBefore
  | periodAfter
  | period
  deriving DecidableEq

abbrev DatePattern := Pattern Char Part

/-- Letters with `re.IGNORECASE`. -/
def word (letters : String) : DatePattern :=
  seq (letters.toList.map fun letter => one (Text.sameLetter letter))

def literal (letters : String) : DatePattern :=
  seq (letters.toList.map fun letter => one (· = letter))

def oneOf (cs : List Char) : DatePattern := one (· ∈ cs)

def words (choices : List String) : DatePattern := alt (choices.map word)

def isWordAt : Option Char → Bool
  | some c => tables.isWord c
  | none => false

def boundary : DatePattern :=
  check fun before rest => isWordAt tables before.head? != isWordAt tables rest.head?

def digit : DatePattern := one tables.isDigit

def nonzero : DatePattern := oneOf ['1', '2', '3', '4', '5', '6', '7', '8', '9']

def blanks : DatePattern := many1 Text.isSpace

def gap : DatePattern := many Text.isSpace

/-- `0?[1-9]|[12]\d|3[01]`. -/
def dayNumber : DatePattern :=
  alt [seq [opt (oneOf ['0']), nonzero], seq [oneOf ['1', '2'], digit tables],
    seq [oneOf ['3'], oneOf ['0', '1']]]

/-- `20\d{2}`. -/
def fullYear : DatePattern := seq [oneOf ['2'], oneOf ['0'], digit tables, digit tables]

/-- `(?:st|nd|rd|th)?`. -/
def ordinalEnding : DatePattern := opt (words ["st", "nd", "rd", "th"])

/-- `_MONTHS`, in the order in which the patterns name them too. -/
def months : List (String × Nat) :=
  [("january", 1), ("jan", 1), ("february", 2), ("feb", 2), ("march", 3), ("mar", 3),
    ("april", 4), ("apr", 4), ("may", 5), ("june", 6), ("jun", 6), ("july", 7), ("jul", 7),
    ("august", 8), ("aug", 8), ("september", 9), ("sep", 9), ("sept", 9), ("october", 10),
    ("oct", 10), ("november", 11), ("nov", 11), ("december", 12), ("dec", 12)]

def monthName : DatePattern := words (months.map Prod.fst)

def ordinalDate : DatePattern :=
  seq [boundary tables, group .day (dayNumber tables), ordinalEnding,
    opt (seq [blanks, opt (seq [word "of", blanks])]), group .month monthName,
    opt (seq [blanks, group .year (fullYear tables)]), boundary tables]

def monthFirstDate : DatePattern :=
  seq [boundary tables, group .month monthName, blanks, group .day (dayNumber tables),
    ordinalEnding, opt (seq [opt (oneOf [',']), blanks, group .year (fullYear tables)]),
    boundary tables]

def numericDate : DatePattern :=
  seq [boundary tables, group .day (dayNumber tables), oneOf ['/', '-'],
    group .month (alt [seq [opt (oneOf ['0']), nonzero], seq [oneOf ['1'], oneOf ['0', '1', '2']]]),
    opt (seq [oneOf ['/', '-'],
      group .year (alt [fullYear tables, seq [digit tables, digit tables]])]),
    boundary tables]

def isoDate : DatePattern :=
  seq [boundary tables, group .year (fullYear tables), oneOf ['-'],
    group .month (alt [seq [oneOf ['0'], nonzero], seq [oneOf ['1'], oneOf ['0', '1', '2']]]),
    oneOf ['-'],
    group .day (alt [seq [oneOf ['0'], nonzero], seq [oneOf ['1', '2'], digit tables],
      seq [oneOf ['3'], oneOf ['0', '1']]]),
    boundary tables]

/-- `\bin\s+(\d+)\s+days?\b`, `:191`. -/
def inDays : DatePattern :=
  seq [boundary tables, literal "in", blanks, group .days (many1 tables.isDigit), blanks,
    literal "day", opt (literal "s"), boundary tables]

def hasLetter (token : String) : Bool := token.toList.any fun c => 'a' ≤ c ∧ c ≤ 'z'

def occursIn (token : String) (text : List Char) : Bool := token.toList <:+: text

/-- `re.search(rf"\b{token}\b", folded)`. -/
def findsWord (token : String) (text : List Char) : Bool :=
  (search (seq [boundary tables, literal token, boundary tables]) text).isSome

def hasWord (tokens : List String) (text : List Char) : Bool :=
  tokens.any fun token =>
    token ≠ "" && if hasLetter token then findsWord tables token text else occursIn token text

def weekdays : List (String × Nat) :=
  [("monday", 0), ("tuesday", 1), ("wednesday", 2), ("thursday", 3), ("friday", 4),
    ("saturday", 5), ("sunday", 6), ("somwar", 0), ("somvaar", 0), ("mangalwar", 1),
    ("mangalvaar", 1), ("budhwar", 2), ("budhvaar", 2), ("guruwar", 3), ("guruvaar", 3),
    ("shukrawar", 4), ("shukravaar", 4), ("shanivar", 5), ("shanivaar", 5), ("raviwar", 6),
    ("ravivaar", 6), ("सोमवार", 0), ("मंगलवार", 1), ("बुधवार", 2), ("गुरुवार", 3),
    ("शुक्रवार", 4), ("शनिवार", 5), ("रविवार", 6)]

def namesWeekday (text : List Char) (name : String) : Bool :=
  if hasLetter name then
    (search (seq [boundary tables, opt (alt [literal "this ", literal "next "]), literal name,
      boundary tables]) text).isSome
  else occursIn name text

def saysNext (text : List Char) (name : String) : Bool :=
  if hasLetter name then occursIn ("next " ++ name) text
  else occursIn ("अगले " ++ name) text || occursIn ("next " ++ name) text

/-- `_parse_weekday(folded, now)`: in how many days. -/
def weekdayDelta (text : List Char) (today : Date) : Option Int :=
  (weekdays.find? fun entry => namesWeekday tables text entry.1).map fun entry =>
    let delta := ((entry.2 : Int) - Calendar.weekday today.toOrdinal) % 7
    if saysNext text entry.1 then if delta = 0 then 7 else delta
    else if delta = 0 ∧ ¬ occursIn ("this " ++ entry.1) text then 7
    else delta

/-- `OverflowError`: a day after the year 9999. -/
inductive DateError where
  | overflow
  deriving DecidableEq

def maxOrdinal : Int := 3652059

def addDays (today : Date) (days : Int) : Except DateError Date :=
  if today.toOrdinal + days ≤ maxOrdinal then .ok (Calendar.ofOrdinal (today.toOrdinal + days))
  else .error .overflow

/-- `now.replace(year=year, month=month, day=day)`, which may raise a `ValueError`. -/
def replaceDate (year : Int) (month day : Nat) : Option Date :=
  if 1 ≤ year ∧ year ≤ 9999 ∧ (⟨year, month, day⟩ : Date).Valid then some ⟨year, month, day⟩
  else none

/-- `match.group(part)` and its `int`. -/
def numberOf (found : Found Char Part) (part : Part) : Nat :=
  number tables ((found.group? part).getD [])

/-- `int(month_raw) if month_raw.isdigit() else _MONTHS[month_raw.casefold()]`. -/
def monthOf (found : Found Char Part) : Option Nat :=
  let raw := (found.group? .month).getD []
  if raw ≠ [] ∧ raw.all tables.isDigit then some (number tables raw)
  else months.lookup (.ofList (casefold tables raw))

def calendarDate (found : Found Char Part) (today : Date) : Option Date :=
  (monthOf tables found).bind fun month =>
    let day := numberOf tables found .day
    let read := match found.group? .year with
      | none => today.year
      | some _ => (numberOf tables found .year : Int)
    let year := if read < 100 then read + 2000 else read
    (replaceDate year month day).bind fun value =>
      if value.toOrdinal < today.toOrdinal ∧ found.group? .year = none then
        replaceDate (year + 1) month day
      else some value

def patternDate (pattern : DatePattern) (text : String) (today : Date) : Option Date :=
  (search pattern text.toList).bind fun found => calendarDate tables found today

/-- The words for a number of days from today, `:170` to `:202`. -/
def relativeDays (text : List Char) (today : Date) : Option Int :=
  if hasWord tables ["today", "tonight", "this evening", "this morning", "aaj", "आज"] text then
    some 0
  else if hasWord tables ["day after tomorrow", "parson", "parso", "परसों"] text then some 2
  else if hasWord tables ["tomorrow", "tommrow", "tommorow", "tomorow", "kal", "कल"] text then
    some 1
  else
    match search (inDays tables) text with
    | some found => some (numberOf tables found .days)
    | none => if occursIn "next week" text then some 7 else weekdayDelta tables text today

/-- The dates of the four patterns, `:204`. -/
def writtenDate (text : String) (today : Date) : Option Date :=
  [isoDate tables, monthFirstDate tables, ordinalDate tables, numericDate tables].findSome?
    fun pattern => patternDate tables pattern text today

def parseDate (text : String) (today : Date) : Except DateError (Option Date) :=
  if folded tables text = [] then .ok none
  else
    match relativeDays tables (folded tables text) today with
    | some days => (addDays today days).map some
    | none => .ok (writtenDate tables text today)

end AiBuddy.Reminders

/-!
## Times in spoken text (`services/reminders/dates.py`)

`parse_time`: the hour and the minute that a text names, as a label such as `9:05 PM`.
-/

namespace AiBuddy.Reminders

open Regex

variable (tables : CharTables)

def formatTimeLabel (hour24 minute : Nat) : String :=
  let hour12 := if hour24 % 12 = 0 then 12 else hour24 % 12
  hour12.repr ++ ":" ++ twoDigits minute ++ " " ++ if hour24 < 12 then "AM" else "PM"

example : formatTimeLabel 21 5 = "9:05 PM" := by decide

/-- `2[0-3]|1[0-9]|0?[1-9]`. -/
def clockHour : List DatePattern :=
  [seq [oneOf ['2'], oneOf ['0', '1', '2', '3']],
    seq [oneOf ['1'], oneOf ['0', '1', '2', '3', '4', '5', '6', '7', '8', '9']],
    seq [opt (oneOf ['0']), nonzero]]

/-- `(?:[:.](?P<minute>[0-5]\d))?`. -/
def clockMinute : DatePattern :=
  opt (seq [oneOf [':', '.'],
    group .minute (seq [oneOf ['0', '1', '2', '3', '4', '5'], digit tables])])

/-- The parts of the day in `_HINDI_CLOCK`. -/
def hindiPeriods : List String :=
  ["subah", "shaam", "sham", "raat", "dopahar", "सुबह", "शाम", "रात", "दोपहर"]

def hindiClock : DatePattern :=
  seq [opt (seq [group .periodBefore (words hindiPeriods), gap, opt (words ["ke", "ki", "को"]),
      gap]),
    group .hour (alt clockHour), clockMinute tables, gap, words ["baje", "bajkar", "बजे"],
    opt (seq [gap, group .periodAfter (words hindiPeriods)])]

/-- `a\.?m\.?|p\.?m\.?`. -/
def meridiemText : DatePattern :=
  alt [seq [word "a", opt (oneOf ['.']), word "m", opt (oneOf ['.'])],
    seq [word "p", opt (oneOf ['.']), word "m", opt (oneOf ['.'])]]

def noDigit (next : Option Char) : Bool :=
  match next with
  | some c => !tables.isDigit c
  | none => true

def timePattern : DatePattern :=
  seq [check fun before _ => noDigit tables before.head?, boundary tables,
    opt (seq [word "at", blanks]),
    group .hour (alt (clockHour ++ [seq [oneOf ['0'], oneOf ['0']]])), clockMinute tables, gap,
    opt (group .meridiem meridiemText), check fun _ rest => noDigit tables rest.head?,
    boundary tables]

def spokenClock : DatePattern :=
  seq [boundary tables,
    group .hour (alt [seq [oneOf ['1'], oneOf ['0', '1', '2']], seq [opt (oneOf ['0']), nonzero]]),
    clockMinute tables, blanks, opt (seq [literal "in the", blanks]),
    group .period (alt (["morning", "evening", "afternoon", "night", "subah", "shaam", "sham",
      "raat"].map literal)),
    boundary tables]

/-- `re.search(r"\bat\s+$", text, re.IGNORECASE)`. -/
def endsWithAt (text : List Char) : Bool :=
  (search (seq [boundary tables, word "at", blanks,
    check fun _ rest => rest = [] ∨ rest = ['\n']]) text).isSome

def textOf (found : Found Char Part) (part : Part) : List Char := (found.group? part).getD []

def hourForPeriod (hour : Nat) (period : String) : Option Nat :=
  if hour > 23 then none
  else if period ∈ ["subah", "सुबह"] then some (if hour = 12 then 0 else hour)
  else if period ∈ ["shaam", "sham", "raat", "dopahar", "शाम", "रात", "दोपहर"] then
    some (if hour < 12 then hour + 12 else hour)
  else some hour

def hindiTime (text : String) (foldedText : List Char) : Option (Nat × Nat) :=
  ((search (hindiClock tables) text.toList).or (search (hindiClock tables) foldedText)).bind
    fun found =>
      let before := textOf found .periodBefore
      let period := casefold tables (if before = [] then textOf found .periodAfter else before)
      (hourForPeriod (numberOf tables found .hour) (.ofList period)).map fun hour24 =>
        (hour24, numberOf tables found .minute)

def spokenHour (hour : Nat) (period : String) : Nat :=
  if period ∈ ["morning", "subah", "सुबह"] then if hour = 12 then 0 else hour
  else if hour = 12 then hour else hour + 12

def meridiemHour (hour : Nat) (meridiem : List Char) : Option Nat :=
  if hour > 12 then none
  else if meridiem.head? = some 'a' then some (if hour = 12 then 0 else hour)
  else some (if hour = 12 then hour else hour + 12)

/-- The match of `_TIME_PATTERN` that counts as a time. -/
def countsAsTime (found : Found Char Part) : Bool :=
  textOf found .meridiem ≠ [] || (found.group? .minute).isSome ||
    endsWithAt tables found.before.reverse

def clockTime (text : String) : Option (Nat × Nat) :=
  ((findAll (timePattern tables) text.toList).find? (countsAsTime tables)).bind fun found =>
    let hour := numberOf tables found .hour
    let minute := numberOf tables found .minute
    let meridiem := ((textOf found .meridiem).map Char.toLower).filter (· ≠ '.')
    if hour > 23 ∨ minute > 59 then none
    else if meridiem ≠ [] then (meridiemHour hour meridiem).map fun hour24 => (hour24, minute)
    else some (hour, minute)

/-- The hour and minute behind `parse_time(text)`. -/
def timeOfDay (text : String) : Option (Nat × Nat) :=
  let foldedText := folded tables text
  if foldedText = [] then none
  else
    match hindiTime tables text foldedText with
    | some time => some time
    | none =>
      if findsWord tables "noon" foldedText then some (12, 0)
      else if findsWord tables "midnight" foldedText then some (0, 0)
      else
        match search (spokenClock tables) foldedText with
        | some found =>
          some (spokenHour (numberOf tables found .hour) (.ofList (textOf found .period)),
            numberOf tables found .minute)
        | none =>
          if (["morning", "evening", "night", "afternoon"].any fun period =>
                findsWord tables period foldedText) ∧
              search (timePattern tables) text.toList = none then none
          else clockTime tables text

def parseTime (text : String) : Option String :=
  (timeOfDay tables text).map fun time => formatTimeLabel time.1 time.2

end AiBuddy.Reminders
