import Mathlib.Data.List.Sort
import Mathlib.Data.Rat.Defs
import Mathlib.Algebra.Order.Ring.Rat
import AiBuddy.Misc.Counting
import AiBuddy.Reminders.Dates

/-!
# Validated schedule items (`services/schedule_extraction/validation.py`)

`CandidateValidator` turns the candidates of a model into events and reminders. A date stands for
its `dateKey`, a confidence is an exact fraction, and `date.fromisoformat` and SHA-1 are parameters.
-/

namespace AiBuddy.ScheduleExtraction

open Calendar (Date)
open Reminders Regex

structure Host where
  tables : CharTables
  zones : ZoneTable
  fromIsoFormat : String → Option Date
  sha1 : String → String

variable (host : Host)

def sequencePrefix : DatePattern :=
  seq [oneOf ['['], many1 host.tables.isDigit, oneOf [']'], gap]

def fold (text : String) : String :=
  let unmarked := sub (sequencePrefix host) [' '] text.toList
  let spaced := (casefold host.tables unmarked).map fun c =>
    if host.tables.isWord c || Text.isSpace c then c else ' '
  " ".intercalate (Text.fields (.ofList spaced))

def stopwords : List String :=
  Text.fields ("a an the to of for with and or on at in by is are be my me our we i you your " ++
    "this that ko ka ki ke se hai hain par pe aur meeting call reminder remind")

def titleTokens (title : String) : List String :=
  ((Text.fields (fold host title)).filter fun token =>
    token ∉ stopwords ∧ 1 < token.length).eraseDups

def titleSimilarity : Rat := 6 / 10

def titlesSimilar (left right : String) : Bool :=
  let a := titleTokens host left
  let b := titleTokens host right
  if a = [] ∨ b = [] then fold host left = fold host right
  else if a ⊆ b ∨ b ⊆ a then true
  else
    let both := (a.filter (· ∈ b)).length
    let either := a.length + b.length - both
    titleSimilarity ≤ (both : Rat) / either

def groundingCoverage : Rat := 75 / 100

def isGrounded (evidence foldedTranscript : String) (transcriptTokens : List String) : Bool :=
  let folded := fold host evidence
  if folded = "" then false
  else if Text.contains folded foldedTranscript then true
  else
    let tokens := (Text.fields folded).filter fun token => 1 < token.length
    if tokens.length < 3 then false
    else groundingCoverage ≤ (tokens.countP (· ∈ transcriptTokens) : Rat) / tokens.length

def normalizeTime (text : String) : Option String :=
  let raw := Text.strip text
  if raw = "" then none
  else
    match parseTimeLabel raw with
    | some time => some (formatTimeLabel time.1 time.2)
    | none => parseTime host.tables raw

def maxDaysAhead : Int := 366

def resolveDate (dateKey dateText : String) (base : Date) : Except DateError (Option Date) :=
  let key := if dateKey.length = 10 then host.fromIsoFormat dateKey else none
  let value := if key = none ∧ dateText ≠ "" then parseDate host.tables dateText base else .ok key
  match value with
  | .error error => .error error
  | .ok none => .ok none
  | .ok (some value) =>
    if value.toOrdinal < base.toOrdinal then .ok none
    else (addDays base maxDaysAhead).map fun last =>
      if value.toOrdinal > last.toOrdinal then none else some value

/-- `datetime.hour * 60 + datetime.minute` of a label. -/
def minuteOfDay (label : String) : Option Nat :=
  (parseTimeLabel label).map fun time => time.1 * 60 + time.2

def addMinutes (timeLabel : String) (minutes : Nat) : String :=
  match parseTimeLabel timeLabel with
  | none => timeLabel
  | some (hour, minute) =>
    let total := (hour * 60 + minute + minutes) % (24 * 60)
    formatTimeLabel (total / 60) (total % 60)

/-- `_after(start, end)`. -/
def isAfter (start finish : String) : Bool :=
  match parseTimeLabel start, parseTimeLabel finish with
  | some a, some b => a.1 * 60 + a.2 < b.1 * 60 + b.2
  | _, _ => false

structure Candidate where
  title : String := ""
  description : String := ""
  dateKey : String := ""
  dateText : String := ""
  timeText : String := ""
  evidence : String := ""
  confidence : Rat := 0
  deriving DecidableEq

inductive EventKind where
  | meeting
  | call
  | appointment
  | deadline
  | event
  deriving DecidableEq

structure EventCandidate extends Candidate where
  kind : EventKind := .meeting
  startTime : String := ""
  endTime : String := ""
  location : String := ""
  deriving DecidableEq

structure ReminderCandidate extends Candidate where
  time : String := ""
  repetition : Repeat := .once
  deriving DecidableEq

/-- What `_merge`, `_better` and `_cap` read of an item. -/
class ScheduledItem (α : Type) where
  title : α → String
  date : α → Date
  timeInferred : α → Bool
  evidence : α → String
  confidence : α → Rat

structure ScheduledEvent where
  kind : EventKind
  title : String
  description : String
  location : String
  date : Date
  startTimeLabel : String
  endTimeLabel : String
  timeInferred : Bool
  evidence : String
  confidence : Rat
  fingerprint : String := ""
  deriving DecidableEq

structure ScheduledReminder where
  title : String
  description : String
  date : Date
  timeLabel : String
  repetition : Repeat
  timeInferred : Bool
  evidence : String
  confidence : Rat
  fingerprint : String := ""
  deriving DecidableEq

instance : ScheduledItem ScheduledEvent where
  title := ScheduledEvent.title
  date := ScheduledEvent.date
  timeInferred := ScheduledEvent.timeInferred
  evidence := ScheduledEvent.evidence
  confidence := ScheduledEvent.confidence

instance : ScheduledItem ScheduledReminder where
  title := ScheduledReminder.title
  date := ScheduledReminder.date
  timeInferred := ScheduledReminder.timeInferred
  evidence := ScheduledReminder.evidence
  confidence := ScheduledReminder.confidence

/-- The reasons of `outcome.drop`. -/
inductive DropReason where
  | noTitle
  | lowConfidence
  | ungrounded
  | invalidDate
  | inPast
  | duplicate
  | overLimit
  deriving DecidableEq

structure CandidateValidator where
  conversationId : String
  foldedTranscript : String
  transcriptTokens : List String
  recordedAt : Date
  timezoneName : Option String
  minConfidence : Rat
  maxItems : Nat
  now : Instant

def CandidateValidator.make (conversationId transcript : String) (recordedAt : Date)
    (timezoneName : Option String) (minConfidence : Rat) (maxItems : Nat) (now : Instant) :
    CandidateValidator where
  conversationId := conversationId
  foldedTranscript := fold host transcript
  transcriptTokens := (Text.fields (fold host transcript)).eraseDups
  recordedAt := recordedAt
  timezoneName := timezoneName
  minConfidence := minConfidence
  maxItems := maxItems
  now := now

/-- `value.isoformat()`, for the years from 1000 on. -/
def toDateKey (date : Date) : String :=
  date.year.repr ++ "-" ++ twoDigits date.month ++ "-" ++ twoDigits date.day

def fingerprint (conversationId kind title dateKey : String) : String :=
  let tokens := " ".intercalate ((titleTokens host title).insertionSort fun a b => a ≤ b)
  let named := if tokens = "" then fold host title else tokens
  host.sha1 ("|".intercalate [conversationId, kind, named, dateKey])

namespace CandidateValidator

variable (validator : CandidateValidator)

/-- `is_grounded(evidence, self.folded_transcript, self.transcript_tokens)`. -/
def grounds (evidence : String) : Bool :=
  isGrounded host evidence validator.foldedTranscript validator.transcriptTokens

/-- `_common(candidate, outcome)`: the date, or why the candidate is
dropped. -/
def common (candidate : Candidate) : Except DateError (Except DropReason Date) :=
  if candidate.title = "" then .ok (.error .noTitle)
  else if candidate.confidence < validator.minConfidence then .ok (.error .lowConfidence)
  else if ¬ validator.grounds host candidate.evidence then .ok (.error .ungrounded)
  else (resolveDate host candidate.dateKey candidate.dateText validator.recordedAt).map fun date =>
    match date with
    | none => .error .invalidDate
    | some date => .ok date

/-- `_in_past(date_key, time_label)`, with `PAST_GRACE`. -/
def inPast (date : Date) (timeLabel : String) : Bool :=
  match zonedLocalToUtc host.zones (toDateKey date) timeLabel validator.timezoneName with
  | none => true
  | some moment => moment < validator.now - 300 * second

/-- `DEFAULT_EVENT_TIME` and `DEFAULT_REMINDER_TIME`. -/
def defaultEventTime : String := "10:00 AM"

def defaultReminderTime : String := "9:00 AM"

/-- `TIMED_EVENT_MINUTES` and `DEADLINE_EVENT_MINUTES`. -/
def spanOf (kind : EventKind) : Nat := if kind = .deadline then 30 else 60

def startOf (candidate : EventCandidate) : Option String :=
  (normalizeTime host candidate.startTime).or (normalizeTime host candidate.timeText)

def endOf (candidate : EventCandidate) (start : String) : String :=
  match normalizeTime host candidate.endTime with
  | some finish =>
    if isAfter start finish then finish else addMinutes start (spanOf candidate.kind)
  | none => addMinutes start (spanOf candidate.kind)

/-- The event of a candidate on a date, `:162` to `:185`. -/
def eventOn (candidate : EventCandidate) (date : Date) : Except DropReason ScheduledEvent :=
  let start := (startOf host candidate).getD defaultEventTime
  if validator.inPast host date start then .error .inPast
  else .ok
    { kind := candidate.kind
      title := Text.take 80 candidate.title
      description := Text.take 500 candidate.description
      location := Text.take 120 candidate.location
      date := date
      startTimeLabel := start
      endTimeLabel := endOf host candidate start
      timeInferred := (startOf host candidate).isNone
      evidence := Text.take 500 candidate.evidence
      confidence := candidate.confidence
      fingerprint := fingerprint host validator.conversationId "event"
        (Text.take 80 candidate.title) (toDateKey date) }

/-- The reminder of a candidate on a date, `:195` to `:212`. -/
def reminderOn (candidate : ReminderCandidate) (date : Date) :
    Except DropReason ScheduledReminder :=
  let read := (normalizeTime host candidate.time).or (normalizeTime host candidate.timeText)
  let timeLabel := read.getD defaultReminderTime
  if candidate.repetition = .once ∧ validator.inPast host date timeLabel then .error .inPast
  else .ok
    { title := Text.take 80 candidate.title
      description := Text.take 500 candidate.description
      date := date
      timeLabel := timeLabel
      repetition := candidate.repetition
      timeInferred := read.isNone
      evidence := Text.take 500 candidate.evidence
      confidence := candidate.confidence
      fingerprint := fingerprint host validator.conversationId "reminder"
        (Text.take 80 candidate.title) (toDateKey date) }

end CandidateValidator

structure Merged (α : Type) where
  kept : List α := []
  drops : List DropReason := []

section Merging

variable {α : Type} [ScheduledItem α]

open ScheduledItem

/-- The test of `_merge`. -/
def sameItem (existing item : α) : Bool :=
  date existing = date item && titlesSimilar host (title existing) (title item)

def better (candidate existing : α) : Bool :=
  if timeInferred existing && !timeInferred candidate then true
  else if timeInferred candidate && !timeInferred existing then false
  else confidence existing < confidence candidate

/-- `_merge(kept, item, outcome)`. -/
def Merged.add (merged : Merged α) (item : α) : Merged α :=
  let answer := Dedup.merge (sameItem host) better merged.kept item
  { kept := answer.1
    drops := if answer.2 then merged.drops ++ [.duplicate] else merged.drops }

def Merged.cap (merged : Merged α) (limit : Nat) : Merged α :=
  if merged.kept.length ≤ limit then merged
  else
    let ranked := merged.kept.insertionSort fun a b => confidence b ≤ confidence a
    { kept := ranked.take limit
      drops := merged.drops ++ (ranked.drop limit).map fun _ => .overLimit }

variable {κ : Type}

/-- One candidate of the loop: what `read` answers, which is the item, or why it is dropped. -/
def Merged.step (read : κ → Except DateError (Except DropReason α)) (merged : Merged α)
    (candidate : κ) : Except DateError (Merged α) :=
  (read candidate).map fun answer =>
    match answer with
    | .error reason => { merged with drops := merged.drops ++ [reason] }
    | .ok item => merged.add host item

/-- The loop over the candidates, `:158` and `:190`. -/
def mergeAll (read : κ → Except DateError (Except DropReason α)) (candidates : List κ) :
    Except DateError (Merged α) :=
  candidates.foldlM (Merged.step host read) {}

end Merging

namespace CandidateValidator

variable (validator : CandidateValidator)

/-- What `events` makes of one candidate. -/
def readEvent (candidate : EventCandidate) : Except DateError (Except DropReason ScheduledEvent) :=
  (validator.common host candidate.toCandidate).map fun date =>
    date.bind (validator.eventOn host candidate)

/-- What `reminders` makes of one candidate. -/
def readReminder (candidate : ReminderCandidate) :
    Except DateError (Except DropReason ScheduledReminder) :=
  (validator.common host candidate.toCandidate).map fun date =>
    date.bind (validator.reminderOn host candidate)

def events (candidates : List EventCandidate) : Except DateError (Merged ScheduledEvent) :=
  (mergeAll host (validator.readEvent host) candidates).map (·.cap validator.maxItems)

def reminders (candidates : List ReminderCandidate) :
    Except DateError (Merged ScheduledReminder) :=
  (mergeAll host (validator.readReminder host) candidates).map (·.cap validator.maxItems)

end CandidateValidator

end AiBuddy.ScheduleExtraction
