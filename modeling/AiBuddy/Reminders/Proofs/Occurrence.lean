import Mathlib.Data.Nat.Digits.Defs
import AiBuddy.Reminders.Worker

/-!
# What the names of occurrences say

The id of an occurrence is read back as its reminder and its instant, and the next trigger of a
reminder comes after the occurrence that it follows.
-/

namespace AiBuddy.Reminders

variable {ds rest : List Char}

theorem takeWhile_append_stop {p : Char → Bool} {stop : Char} (hds : ∀ c ∈ ds, p c = true)
    (hstop : p stop = false) :
    (ds ++ stop :: rest).takeWhile p = ds := by
  rw [List.takeWhile_append_of_pos hds, List.takeWhile_cons_of_neg (by simp [hstop]),
    List.append_nil]

theorem dropWhile_append_stop {p : Char → Bool} {stop : Char} (hds : ∀ c ∈ ds, p c = true)
    (hstop : p stop = false) :
    (ds ++ stop :: rest).dropWhile p = stop :: rest := by
  rw [List.dropWhile_append_of_pos hds, List.dropWhile_cons_of_neg (by simp [hstop])]

theorem field?_append (separator stop : Char) {widths : List Nat} {low high : Nat}
    (hds : ∀ c ∈ ds, c.toLower ≠ separator) (hstop : stop.toLower = separator) :
    field? separator widths low high (ds ++ stop :: rest) =
      if ds.length ∈ widths then
        ((Text.digits? ds).filter fun n => low ≤ n ∧ n ≤ high).map fun n => (n, rest)
      else none := by
  have hkeep : ∀ c ∈ ds, decide (c.toLower ≠ separator) = true :=
    fun c hc => decide_eq_true (hds c hc)
  have hend : decide (stop.toLower ≠ separator) = false := decide_eq_false (not_not.mpr hstop)
  unfold field?
  rw [takeWhile_append_stop hkeep hend, dropWhile_append_stop hkeep hend]

variable {c : Char}

theorem toLower_of_isDigit (h : c.isDigit = true) : c.toLower = c := by
  rw [Char.isDigit_iff_toNat] at h
  unfold Char.toLower
  rw [dif_neg]
  rintro ⟨hlow, -⟩
  have hle : ('A' : Char).toNat ≤ c.toNat := hlow
  have h9 : ('9' : Char).toNat = 57 := rfl
  have hA : ('A' : Char).toNat = 65 := rfl
  omega

theorem toLower_ne_of_isDigit {separator : Char} (h : c.isDigit = true)
    (hseparator : separator.isDigit = false) : c.toLower ≠ separator := by
  rw [toLower_of_isDigit h]
  rintro rfl
  rw [h] at hseparator
  cases hseparator

variable {n : Nat}

theorem isDigit_of_mem_toDigits (h : c ∈ Nat.toDigits 10 n) : c.isDigit = true :=
    Nat.isDigit_of_mem_toDigits (by omega) (by omega) h

theorem isDigit_of_mem_twoDigits (h : c ∈ (twoDigits n).toList) : c.isDigit = true := by
  unfold twoDigits at h
  split at h
  · rw [String.toList_append, Nat.toList_repr] at h
    rcases List.mem_append.mp h with hzero | hdigits
    · obtain rfl : c = '0' := List.mem_singleton.mp hzero
      rfl
    · exact isDigit_of_mem_toDigits hdigits
  · rw [Nat.toList_repr] at h
    exact isDigit_of_mem_toDigits h

theorem twoDigits_read : ∀ n < 100, (twoDigits n).toList.length = 2 ∧
    Text.digits? (twoDigits n).toList = some n := by decide

theorem field?_twoDigits (separator stop : Char) {low high : Nat} (hn : n < 100) (hlow : low ≤ n)
    (hhigh : n ≤ high) (hseparator : separator.isDigit = false) (hstop : stop.toLower = separator) :
    field? separator [1, 2] low high ((twoDigits n).toList ++ stop :: rest) = some (n, rest) := by
  obtain ⟨hlength, hread⟩ := twoDigits_read n hn
  rw [field?_append separator stop
    (fun c hc => toLower_ne_of_isDigit (isDigit_of_mem_twoDigits hc) hseparator) hstop,
    if_pos (by rw [hlength]; decide), hread]
  simp [Option.filter, hlow, hhigh]

theorem blankToZero_twoDigits (n : Nat) (cs : List Char) :
    blankToZero ((twoDigits n).toList ++ cs) = (twoDigits n).toList ++ cs := by
  cases hdigits : (twoDigits n).toList with
  | nil =>
    unfold twoDigits at hdigits
    split at hdigits
    · rw [String.toList_append] at hdigits
      exact absurd (List.append_eq_nil_iff.mp hdigits).1 (List.cons_ne_nil _ _)
    · rw [Nat.toList_repr] at hdigits
      exact absurd hdigits Nat.toDigits_ne_nil
  | cons c ds =>
    have hc : c.isDigit = true := isDigit_of_mem_twoDigits (hdigits ▸ List.mem_cons_self)
    unfold blankToZero
    split
    · next hblank =>
      obtain ⟨rfl, -⟩ := List.cons.inj hblank
      cases hc
    · rfl

theorem toList_toOccurrenceKey (value : Instant) :
    (toOccurrenceKey value).toList =
      (dateOf value).year.repr.toList ++ '-' :: ((twoDigits (dateOf value).month).toList ++
        '-' :: ((twoDigits (dateOf value).day).toList ++ 'T' ::
          ((twoDigits ((value % day / second).toNat / 3600)).toList ++ ':' ::
            ((twoDigits ((value % day / second).toNat % 3600 / 60)).toList ++ ':' ::
              ((twoDigits ((value % day / second).toNat % 60)).toList ++ ['Z']))))) := by
  simp [toOccurrenceKey]

theorem ofCivil_dateOf {value : Instant} :
    ofCivil (dateOf value) ((value % day / second).toNat / 3600)
      ((value % day / second).toNat % 3600 / 60) ((value % day / second).toNat % 60) =
      value / second * second := by
  have hday : (dateOf value).toOrdinal = value / day + epochOrdinal :=
    Calendar.toOrdinal_ofOrdinal _
  unfold ofCivil
  rw [hday]
  simp only [day, second]
  omega

theorem parse_key_fields {value : Instant} {year : Nat} {rest : List Char}
    (hyear : field? '-' [4] 1 9999 (toOccurrenceKey value).toList = some (year, rest))
    (hrest : rest = ((twoDigits (dateOf value).month).toList ++
      '-' :: ((twoDigits (dateOf value).day).toList ++
      'T' :: ((twoDigits ((value % day / second).toNat / 3600)).toList ++
      ':' :: ((twoDigits ((value % day / second).toNat % 3600 / 60)).toList ++
      ':' :: ((twoDigits ((value % day / second).toNat % 60)).toList ++ ['Z']))))))
    (hsame : (year : Int) = (dateOf value).year) :
    parseOccurrenceStamp (toOccurrenceKey value) = some (value / second * second) := by
  obtain ⟨hmonth, hmonthLe, hday, hdayLe⟩ : (dateOf value).Valid := Calendar.valid_ofOrdinal _
  have hlong : (dateOf value).day ≤ 31 := by
    refine Nat.le_trans hdayLe ?_
    unfold Calendar.daysInMonth
    split
    · split <;> omega
    · split <;> omega
  have hseconds : (value % day / second).toNat < 86400 := by
    simp only [day, second]
    omega
  unfold parseOccurrenceStamp
  rw [hyear, hrest]
  simp only [Option.bind_eq_bind, Option.bind_some]
  rw [field?_twoDigits '-' '-' (by omega) hmonth hmonthLe rfl rfl]
  simp only [Option.bind_some]
  rw [blankToZero_twoDigits, field?_twoDigits 't' 'T' (by omega) hday hlong rfl rfl]
  simp only [Option.bind_some]
  rw [field?_twoDigits ':' ':' (by omega) (by omega) (by omega) rfl rfl]
  simp only [Option.bind_some]
  rw [field?_twoDigits ':' ':' (by omega) (by omega) (by omega) rfl rfl]
  simp only [Option.bind_some]
  rw [field?_twoDigits 'z' 'Z' (by omega) (by omega) (by omega) rfl rfl]
  have hdate : (⟨year, (dateOf value).month, (dateOf value).day⟩ : Calendar.Date) =
    dateOf value := by
    rw [hsame]
  have hvalid : (dateOf value).Valid := ⟨hmonth, hmonthLe, hday, hdayLe⟩
  simp only [Option.bind_some, hdate]
  rw [guard, if_pos ⟨trivial, hvalid⟩]
  exact congrArg some ofCivil_dateOf

theorem parse_of_no_year {stamp : String} (h : field? '-' [4] 1 9999 stamp.toList = none) :
    parseOccurrenceStamp stamp = none := by
  unfold parseOccurrenceStamp
  rw [h]
  rfl

theorem field?_year (n : Nat) (rest : List Char) :
    field? '-' [4] 1 9999 (Nat.toDigits 10 n ++ '-' :: rest) =
      if (Nat.toDigits 10 n).length = 4 ∧ 1 ≤ n ∧ n ≤ 9999 then some (n, rest) else none := by
  rw [field?_append '-' '-'
    (fun c hc => toLower_ne_of_isDigit (isDigit_of_mem_toDigits hc) rfl) rfl,
    Text.digits?_toDigits]
  by_cases hlength : (Nat.toDigits 10 n).length = 4
  · by_cases hrange : 1 ≤ n ∧ n ≤ 9999
    · simp [hlength, hrange, Option.filter]
    · simp [hlength, hrange, Option.filter]
  · rw [if_neg (fun h => hlength (List.mem_singleton.mp h)), if_neg (fun h => hlength h.1)]

variable {value : Instant}

theorem parse_key_eq_some {at_ : Instant}
    (h : parseOccurrenceStamp (toOccurrenceKey value) = some at_) :
    at_ = value / second * second := by
  cases hyear : (dateOf value).year with
  | ofNat n =>
    have hdigits : (dateOf value).year.repr.toList = Nat.toDigits 10 n := by
      rw [hyear]
      exact Nat.toList_repr
    have hfield := toList_toOccurrenceKey value
    rw [hdigits] at hfield
    by_cases hrange : (Nat.toDigits 10 n).length = 4 ∧ 1 ≤ n ∧ n ≤ 9999
    · have hread := field?_year n
      simp only [if_pos hrange] at hread
      rw [parse_key_fields (by rw [hfield, hread]) rfl hyear.symm] at h
      exact (Option.some.inj h).symm
    · rw [parse_of_no_year (by rw [hfield, field?_year, if_neg hrange])] at h
      cases h
  | negSucc n =>
    have hdigits : (dateOf value).year.repr.toList = '-' :: Nat.toDigits 10 (n + 1) := by
      rw [hyear, Text.toList_repr_negSucc]
    rw [parse_of_no_year] at h
    · cases h
    · rw [toList_toOccurrenceKey, hdigits, List.cons_append]
      have hempty : ∀ c ∈ ([] : List Char), c.toLower ≠ '-' := fun c hc =>
        absurd hc List.not_mem_nil
      exact field?_append '-' '-' hempty rfl

theorem parseOccurrenceId_occurrenceId {id : ReminderId} {value : Instant} :
    parseOccurrenceId (occurrenceId id.str value) = some (id.str, toOccurrenceKey value) := by
  have hlist : (occurrenceId id.str value).toList =
      id.str.toList ++ ':' :: (toOccurrenceKey value).toList := by simp [occurrenceId]
  have hkeep : ∀ c ∈ id.str.toList, decide (c ≠ ':') = true := by
    intro c hc
    apply decide_eq_true
    rintro rfl
    exact id.colon_notMem hc
  have hkey : (toOccurrenceKey value).toList.isEmpty = false := by
    rw [List.isEmpty_eq_false_iff, toList_toOccurrenceKey]
    exact List.append_ne_nil_of_right_ne_nil _ (List.cons_ne_nil _ _)
  unfold parseOccurrenceId
  rw [hlist, takeWhile_append_stop hkeep (decide_eq_false (not_not.mpr rfl)),
    dropWhile_append_stop hkeep (decide_eq_false (not_not.mpr rfl))]
  simp only [hkey, List.isEmpty_eq_false_iff.mpr id.ne_empty, Bool.or_self, Bool.false_eq_true,
    if_false, String.ofList_toList]

theorem parseMember_occurrenceId {id : ReminderId} {at_ : Instant} {reminderId : String}
    (h : parseMember (occurrenceId id.str value) = some (reminderId, at_)) :
    reminderId = id.str ∧ at_ = value / second * second := by
  unfold parseMember at h
  rw [parseOccurrenceId_occurrenceId, Option.bind_some, Option.map_eq_some_iff] at h
  obtain ⟨found, hstamp, hpair⟩ := h
  obtain ⟨rfl, rfl⟩ := Prod.mk.inj hpair
  exact ⟨rfl, parse_key_eq_some hstamp⟩

theorem occurrenceId_ne_empty (id : ReminderId) (value : Instant) :
    occurrenceId id.str value ≠ "" := by
  intro h
  have hlist := congrArg String.toList h
  rw [occurrenceId, String.toList_append, String.toList_append] at hlist
  exact id.ne_empty (List.append_eq_nil_iff.mp (List.append_eq_nil_iff.mp hlist).1).1

theorem dvd_ofCivil {date : Calendar.Date} {hour minute seconds : Nat} :
    second ∣ ofCivil date hour minute seconds := by
  refine Int.dvd_add (Dvd.dvd.mul_left ?_ _) (Dvd.intro_left _ rfl)
  exact Dvd.intro_left _ rfl

theorem dvd_day : second ∣ day := Dvd.intro_left _ rfl

variable {wall : Int}

theorem dvd_toUtc {zone : Zone} {fold : Bool} (h : second ∣ wall) : second ∣ zone.toUtc wall fold :=
    Int.dvd_sub h (Dvd.intro_left _ rfl)

theorem dvd_toLocal {zone : Zone} (h : second ∣ value) : second ∣ (zone.toLocal value).1 :=
    Int.dvd_add h (Dvd.intro_left _ rfl)

theorem dvd_skipWeekend {further : Nat} (h : second ∣ wall) :
    second ∣ skipWeekend further wall := by
  induction further generalizing wall with
  | zero => exact h
  | succ further ih =>
    rw [skipWeekend]
    split
    · exact ih (Int.dvd_add h dvd_day)
    · exact h

theorem dvd_nextMonth (h : second ∣ wall) : second ∣ nextMonth wall := by
  refine Int.dvd_add (Dvd.dvd.mul_left dvd_day _) ?_
  rw [Int.emod_def]
  exact Int.dvd_sub h (Dvd.dvd.mul_right dvd_day _)

variable {next : Instant}

theorem dvd_addRepeat {zones : ZoneTable} {repetition : Repeat} {timezone : Option String}
    (hvalue : second ∣ value) (h : addRepeat zones value repetition timezone = some next) :
    second ∣ next := by
  have hlocal : second ∣ ((resolveZone zones timezone).toLocal value).1 := dvd_toLocal hvalue
  unfold addRepeat at h
  dsimp only at h
  cases repetition with
  | daily =>
    obtain rfl := Option.some.inj h
    exact dvd_toUtc (Int.dvd_add hlocal dvd_day)
  | weekly =>
    obtain rfl := Option.some.inj h
    exact dvd_toUtc (Int.dvd_add hlocal (Dvd.dvd.mul_left dvd_day _))
  | weekdays =>
    obtain rfl := Option.some.inj h
    exact dvd_toUtc (dvd_skipWeekend (Int.dvd_add hlocal dvd_day))
  | monthly =>
    obtain rfl := Option.some.inj h
    exact dvd_toUtc (dvd_nextMonth hlocal)
  | once => cases h
  | other text => cases h

theorem repeatUntil_eq_some {zones : ZoneTable} {timezone : Option String} {repetition : Repeat}
    {after : Instant} {further : Nat} {candidate : Instant} (hcandidate : second ∣ candidate)
    (h : repeatUntil zones timezone repetition after further candidate = some next) :
    after < next ∧ second ∣ next := by
  induction further generalizing candidate with
  | zero => cases h
  | succ further ih =>
    rw [repeatUntil] at h
    split at h
    · cases h
    · next found hfound =>
      have hdvd := dvd_addRepeat hcandidate hfound
      split at h
      · cases h
      · split at h
        · next hafter =>
          obtain rfl := Option.some.inj h
          exact ⟨hafter, hdvd⟩
        · exact ih hdvd h

theorem nextTrigger_eq_some {config : Config} {reminder : Reminder} {after : Instant}
    (h : reminder.nextTrigger config after = some next) : after < next ∧ second ∣ next := by
  unfold Reminder.nextTrigger at h
  split at h
  · cases h
  · next honce =>
    unfold computeNextTrigger at h
    split at h
    · cases h
    · next candidate hcandidate =>
      have hdvd : second ∣ candidate := by
        simp only [zonedLocalToUtc, Option.bind_eq_bind, Option.bind_eq_some_iff] at hcandidate
        obtain ⟨date, -, ⟨hour, minute⟩, -, hfound⟩ := hcandidate
        obtain rfl := Option.some.inj hfound
        exact dvd_toUtc dvd_ofCivil
      split at h
      · next hafter =>
        obtain rfl := Option.some.inj h
        exact ⟨hafter.resolve_right honce, hdvd⟩
      · exact repeatUntil_eq_some hdvd h

theorem parseTimeLabel_le {label : String} {time : Nat × Nat}
    (h : parseTimeLabel label = some time) : time.1 ≤ 23 ∧ time.2 ≤ 59 := by
  unfold parseTimeLabel at h
  dsimp only at h
  obtain ⟨hour, -, h⟩ := Option.bind_eq_some_iff.mp h
  obtain ⟨_, hhour, h⟩ := Option.bind_eq_some_iff.mp h
  have hbounds : 1 ≤ hour ∧ hour ≤ 12 := by
    unfold guard at hhour
    split at hhour
    case isTrue hguard => exact ⟨hguard.1, hguard.2.1⟩
    case isFalse => cases hhour
  split at h
  case h_1 =>
    obtain ⟨minute, -, h⟩ := Option.bind_eq_some_iff.mp h
    obtain ⟨_, hminute, h⟩ := Option.bind_eq_some_iff.mp h
    have hle : minute ≤ 59 := by
      unfold guard at hminute
      split at hminute
      case isTrue hguard => exact hguard
      case isFalse => cases hminute
    split at h
    case h_1 =>
      obtain rfl := Option.some.inj h
      exact ⟨by dsimp only; split <;> omega, hle⟩
    case h_2 =>
      obtain rfl := Option.some.inj h
      exact ⟨by dsimp only; split <;> omega, hle⟩
    case h_3 => cases h
  case h_2 => cases h

theorem parseDateKey_valid {dateKey : String} {date : Calendar.Date}
    (h : parseDateKey dateKey = some date) : date.Valid := by
  unfold parseDateKey at h
  split at h
  · dsimp only at h
    split at h
    · next hvalid =>
      obtain rfl := Option.some.inj h
      exact hvalid.2.2.2.2
    · cases h
  · cases h

end AiBuddy.Reminders
