import AiBuddy.Reminders.Proofs.Occurrence
import Mathlib.Data.Int.Order.Basic
import Mathlib.Order.Monotone.Basic

/-!
# When a repeating reminder fires next

The days on which a reminder is due, and when `compute_next_trigger` finds the first of them after
an instant.
-/

namespace AiBuddy.Reminders

/-- The year and the month `k` months after the first day. -/
def monthAt (start : Calendar.Date) (k : Nat) : Int × Nat :=
  (start.year + ((start.month - 1 + k) / 12 : Nat), (start.month - 1 + k) % 12 + 1)

def lengthAt (start : Calendar.Date) (k : Nat) : Nat :=
  Calendar.daysInMonth (monthAt start k).1 (monthAt start k).2

def dateAt (start : Calendar.Date) (k dayOfMonth : Nat) : Calendar.Date :=
  ⟨(monthAt start k).1, (monthAt start k).2, dayOfMonth⟩

def nextWorkday (ordinal : Int) : Int :=
  if Calendar.weekday ordinal = 4 then ordinal + 3
  else if Calendar.weekday ordinal = 5 then ordinal + 2
  else ordinal + 1

/-- The day on which the `k`-th repetition is due. -/
def dueDay (start : Calendar.Date) : Repeat → Nat → Int
  | .daily, k => start.toOrdinal + k
  | .weekly, k => start.toOrdinal + 7 * k
  | .weekdays, k => nextWorkday^[k] start.toOrdinal
  | .monthly, k => (dateAt start k (min start.day (lengthAt start k))).toOrdinal
  | .once, _ => start.toOrdinal
  | .other _, _ => start.toOrdinal

def wallAt (ordinal time : Int) : Int := (ordinal - epochOrdinal) * day + time

def instantAt (zone : Zone) (time ordinal : Int) : Instant :=
  zone.toUtc (wallAt ordinal time) false

/-- What `compute_next_trigger` should find: the first due time after an instant. -/
def IsNext (due : Nat → Instant) (after : Instant) (found : Option Instant) : Prop :=
  ∃ k, found = some (due k) ∧ after < due k ∧ ∀ j, after < due j → due k ≤ due j

def Repeat.recurs : Repeat → Bool
  | .daily | .weekly | .weekdays | .monthly => true
  | .once | .other _ => false

variable {ordinal : Int}

theorem nextWorkday_spec :
    ordinal < nextWorkday ordinal ∧ Calendar.weekday (nextWorkday ordinal) < 5 ∧
      ∀ between, ordinal < between → between < nextWorkday ordinal →
        5 ≤ Calendar.weekday between := by
  have hweekday : ∀ day, Calendar.weekday day = (day + 6) % 7 := fun _ => rfl
  unfold nextWorkday
  by_cases hfriday : Calendar.weekday ordinal = 4
  · rw [if_pos hfriday]
    simp only [hweekday] at hfriday ⊢
    exact ⟨by omega, by omega, fun between hlow hhigh => by omega⟩
  · rw [if_neg hfriday]
    by_cases hsaturday : Calendar.weekday ordinal = 5
    · rw [if_pos hsaturday]
      simp only [hweekday] at hsaturday ⊢
      exact ⟨by omega, by omega, fun between hlow hhigh => by omega⟩
    · rw [if_neg hsaturday]
      simp only [hweekday] at hfriday hsaturday ⊢
      exact ⟨by omega, by omega, fun between hlow hhigh => by omega⟩

/-- The day of the month after `k` repetitions: it shrinks to the shortest month on the way. -/
def shortest (start : Calendar.Date) : Nat → Nat
  | 0 => start.day
  | k + 1 => min (shortest start k) (lengthAt start (k + 1))

/-- The day that the `k`-th repetition leads to. -/
def visitedDay (start : Calendar.Date) (repetition : Repeat) (k : Nat) : Int :=
  match repetition with
  | .monthly => (dateAt start k (shortest start k)).toOrdinal
  | other => dueDay start other k

variable {dayOfMonth : Nat}

section Days

variable {start : Calendar.Date}

theorem monthAt_bounds (start : Calendar.Date) (k : Nat) :
    1 ≤ (monthAt start k).2 ∧ (monthAt start k).2 ≤ 12 := by
  simp only [monthAt]
  omega

theorem monthAt_succ (start : Calendar.Date) (k : Nat) :
    monthAt start (k + 1) =
      if (monthAt start k).2 + 1 > 12 then ((monthAt start k).1 + 1, 1)
      else ((monthAt start k).1, (monthAt start k).2 + 1) := by
  by_cases hdecember : (monthAt start k).2 + 1 > 12
  · rw [if_pos hdecember]
    simp only [monthAt, Prod.mk.injEq] at hdecember ⊢
    omega
  · rw [if_neg hdecember]
    simp only [monthAt, Prod.mk.injEq] at hdecember ⊢
    omega

theorem monthAt_zero (h : start.Valid) : monthAt start 0 = (start.year, start.month) := by
  have hmonth := h.1
  have hlast := h.2.1
  simp only [monthAt]
  rw [Prod.mk.injEq]
  omega

theorem lengthAt_pos (start : Calendar.Date) (k : Nat) : 1 ≤ lengthAt start k := by
  unfold lengthAt Calendar.daysInMonth
  split
  · split <;> omega
  · split <;> omega

theorem valid_dateAt {k : Nat} (hpos : 1 ≤ dayOfMonth) (hle : dayOfMonth ≤ lengthAt start k) :
    (dateAt start k dayOfMonth).Valid :=
  ⟨(monthAt_bounds start k).1, (monthAt_bounds start k).2, hpos, hle⟩

theorem shortest_bounds (h : start.Valid) (k : Nat) :
    1 ≤ shortest start k ∧ shortest start k ≤ start.day ∧ shortest start k ≤ lengthAt start k := by
  induction k with
  | zero =>
    refine ⟨h.2.2.1, Nat.le_refl _, ?_⟩
    rw [lengthAt, monthAt_zero h]
    exact h.2.2.2
  | succ k ih =>
    have hpos := lengthAt_pos start (k + 1)
    simp only [shortest]
    omega

theorem le_shortest_iff {length n : Nat} :
    length ≤ shortest start n ↔
      length ≤ start.day ∧ ∀ j, 1 ≤ j → j ≤ n → length ≤ lengthAt start j := by
  induction n with
  | zero => exact ⟨fun h => ⟨h, fun j hone hzero => by omega⟩, fun h => h.1⟩
  | succ n ih =>
    rw [shortest, Nat.le_min, ih]
    constructor
    · rintro ⟨⟨hday, hbefore⟩, hlast⟩
      refine ⟨hday, fun j hone hj => ?_⟩
      rcases Nat.lt_or_eq_of_le hj with hlt | rfl
      · exact hbefore j hone (by omega)
      · exact hlast
    · rintro ⟨hday, hall⟩
      exact ⟨⟨hday, fun j hone hj => hall j hone (by omega)⟩, hall (n + 1) (by omega) le_rfl⟩

theorem dateAt_lt {k later dayOfLater : Nat} (hlt : k < later)
    (hday : 1 ≤ dayOfMonth ∧ dayOfMonth ≤ lengthAt start k)
    (hlater : 1 ≤ dayOfLater ∧ dayOfLater ≤ lengthAt start later) :
    (dateAt start k dayOfMonth).toOrdinal < (dateAt start later dayOfLater).toOrdinal := by
  refine Calendar.toOrdinal_lt (valid_dateAt hday.1 hday.2) (valid_dateAt hlater.1 hlater.2) ?_
  simp only [Calendar.Date.Before, dateAt, monthAt]
  omega

theorem dueDay_lt_succ (h : start.Valid) {repetition : Repeat} (hrecurs : repetition.recurs)
    (k : Nat) : dueDay start repetition k < dueDay start repetition (k + 1) := by
  cases repetition with
  | daily =>
    simp only [dueDay]
    omega
  | weekly =>
    simp only [dueDay]
    omega
  | weekdays =>
    simp only [dueDay, Function.iterate_succ_apply']
    exact (nextWorkday_spec).1
  | monthly =>
    have hday := h.2.2.1
    have hlength := lengthAt_pos start k
    have hlater := lengthAt_pos start (k + 1)
    exact dateAt_lt (Nat.lt_succ_self k) (by omega) (by omega)
  | once => cases hrecurs
  | other text => cases hrecurs

theorem dueDay_zero (h : start.Valid) (repetition : Repeat) :
    dueDay start repetition 0 = start.toOrdinal := by
  cases repetition with
  | monthly =>
    have hlength : lengthAt start 0 = Calendar.daysInMonth start.year start.month := by
      rw [lengthAt, monthAt_zero h]
    have hday := h.2.2.2
    rw [dueDay, hlength, Nat.min_eq_left hday, dateAt, monthAt_zero h]
  | _ => simp [dueDay]

theorem visitedDay_zero (h : start.Valid) {repetition : Repeat} :
    visitedDay start repetition 0 = start.toOrdinal := by
  cases repetition with
  | monthly => rw [visitedDay, shortest, dateAt, monthAt_zero h]
  | daily => exact dueDay_zero h .daily
  | weekly => exact dueDay_zero h .weekly
  | weekdays => exact dueDay_zero h .weekdays
  | once => rfl
  | other text => rfl

theorem visitedDay_lt_succ (h : start.Valid) {repetition : Repeat} (hrecurs : repetition.recurs)
    (k : Nat) : visitedDay start repetition k < visitedDay start repetition (k + 1) := by
  cases repetition with
  | monthly =>
    have hday := shortest_bounds h k
    have hlater := shortest_bounds h (k + 1)
    exact dateAt_lt (Nat.lt_succ_self k) ⟨hday.1, hday.2.2⟩ ⟨hlater.1, hlater.2.2⟩
  | _ => exact dueDay_lt_succ h hrecurs k

/-- The day of the month is not lost on the way to the `n`-th repetition: no month on the way is
shorter than the day that is due then. -/
def KeepsDay (start : Calendar.Date) (repetition : Repeat) (n : Nat) : Prop :=
  repetition = .monthly → ∀ j, 1 ≤ j → j ≤ n → min start.day (lengthAt start n) ≤ lengthAt start j

theorem shortest_eq_iff (h : start.Valid) {n : Nat} :
    shortest start n = min start.day (lengthAt start n) ↔
      ∀ j, 1 ≤ j → j ≤ n → min start.day (lengthAt start n) ≤ lengthAt start j := by
  have hbounds := shortest_bounds h n
  have hle := @le_shortest_iff start (min start.day (lengthAt start n)) n
  constructor
  · intro heq
    exact (hle.mp heq.ge).2
  · intro hall
    have := hle.mpr ⟨Nat.min_le_left _ _, hall⟩
    omega

theorem visitedDay_eq_dueDay (h : start.Valid) {repetition : Repeat} {n : Nat} :
    visitedDay start repetition n = dueDay start repetition n ↔ KeepsDay start repetition n := by
  cases repetition with
  | monthly =>
    have hbounds := shortest_bounds h n
    have hday := h.2.2.1
    have hlength := lengthAt_pos start n
    have hkeeps : KeepsDay start .monthly n ↔ _ := ⟨fun hkeeps => hkeeps rfl, fun hall _ => hall⟩
    rw [hkeeps, ← shortest_eq_iff h]
    constructor
    · intro heq
      have hdates := Calendar.eq_of_toOrdinal_eq (valid_dateAt hbounds.1 hbounds.2.2)
        (valid_dateAt (by omega) (by omega)) heq
      exact congrArg Calendar.Date.day hdates
    · intro heq
      rw [visitedDay, dueDay, heq]
  | _ => exact ⟨fun _ hmonthly => (nomatch hmonthly), fun _ => rfl⟩

theorem visitedDay_le_dueDay (h : start.Valid) {repetition : Repeat} {k : Nat} :
    visitedDay start repetition k ≤ dueDay start repetition k := by
  cases repetition with
  | monthly =>
    have hbounds := shortest_bounds h k
    simp only [visitedDay, dueDay, Calendar.Date.toOrdinal, dateAt]
    omega
  | _ => exact le_rfl

end Days

section Walls

variable {time : Int}

theorem ordinalOf_wallAt (htime : 0 ≤ time ∧ time < day) :
    ordinalOf (wallAt ordinal time) = ordinal := by
  have hdays : wallAt ordinal time / day = ordinal - epochOrdinal := by
    rw [wallAt, Int.add_comm, Int.add_mul_ediv_right _ _ (by decide),
      Int.ediv_eq_zero_of_lt htime.1 htime.2, Int.zero_add]
  rw [ordinalOf, hdays]
  omega

theorem wallAt_emod (htime : 0 ≤ time ∧ time < day) : wallAt ordinal time % day = time := by
  rw [wallAt, Int.add_comm, Int.add_mul_emod_self_right, Int.emod_eq_of_lt htime.1 htime.2]

theorem wallAt_add {time days : Int} :
    wallAt ordinal time + days * day = wallAt (ordinal + days) time := by
  simp only [wallAt, Int.sub_mul, Int.add_mul]
  omega

theorem wallAt_add_day {time : Int} : wallAt ordinal time + day = wallAt (ordinal + 1) time := by
  rw [← wallAt_add, Int.one_mul]

theorem skipWeekend_wallAt (htime : 0 ≤ time ∧ time < day) :
    skipWeekend 2 (wallAt ordinal time + day) = wallAt (nextWorkday ordinal) time := by
  have hweekday : ∀ day, Calendar.weekday day = (day + 6) % 7 := fun _ => rfl
  rw [wallAt_add_day, nextWorkday]
  by_cases hfriday : Calendar.weekday ordinal = 4
  · have hsaturday : 5 ≤ Calendar.weekday (ordinal + 1) := by
      rw [hweekday] at hfriday ⊢
      omega
    have hsunday : 5 ≤ Calendar.weekday (ordinal + 1 + 1) := by
      rw [hweekday] at hfriday ⊢
      omega
    rw [if_pos hfriday, skipWeekend, ordinalOf_wallAt htime, if_pos hsaturday, wallAt_add_day,
      skipWeekend, ordinalOf_wallAt htime, if_pos hsunday, wallAt_add_day, skipWeekend]
    congr 1
    omega
  · rw [if_neg hfriday]
    by_cases hsaturday : Calendar.weekday ordinal = 5
    · have hsunday : 5 ≤ Calendar.weekday (ordinal + 1) := by
        rw [hweekday] at hsaturday ⊢
        omega
      have hmonday : ¬ 5 ≤ Calendar.weekday (ordinal + 1 + 1) := by
        rw [hweekday] at hsaturday ⊢
        omega
      rw [if_pos hsaturday, skipWeekend, ordinalOf_wallAt htime, if_pos hsunday, wallAt_add_day,
        skipWeekend, ordinalOf_wallAt htime, if_neg hmonday]
      congr 1
      omega
    · have hworkday : ¬ 5 ≤ Calendar.weekday (ordinal + 1) := by
        rw [hweekday] at hfriday hsaturday ⊢
        omega
      rw [if_neg hsaturday, skipWeekend, ordinalOf_wallAt htime, if_neg hworkday]

theorem daysInMonth_eq {year : Int} {month : Nat} (hone : 1 ≤ month) (hlast : month ≤ 12) :
    daysInMonth year month = Calendar.daysInMonth year month := by
  let date : Calendar.Date := ⟨year, month, Calendar.daysInMonth year month⟩
  have hpos : 1 ≤ Calendar.daysInMonth year month := by
    unfold Calendar.daysInMonth
    split
    · split <;> omega
    · split <;> omega
  have hvalid : date.Valid := ⟨hone, hlast, hpos, Nat.le_refl _⟩
  have hnext : (if month = 12 then (⟨year + 1, 1, 1⟩ : Calendar.Date)
      else ⟨year, month + 1, 1⟩).toOrdinal - 1 = date.toOrdinal := by
    by_cases hdecember : month = 12
    · subst hdecember
      have hfirst : (⟨year + 1, 1, 1⟩ : Calendar.Date).toOrdinal =
          Calendar.daysBeforeYear (year + 1) + 0 + 1 := rfl
      rw [if_pos rfl, hfirst]
      change _ = (⟨year, 12, 31⟩ : Calendar.Date).toOrdinal
      rw [Calendar.toOrdinal_last]
      omega
    · have hsucc := @Calendar.daysBeforeMonth_succ year month hone
      rw [if_neg hdecember]
      simp only [Calendar.Date.toOrdinal, date, hsucc]
      push_cast
      omega
  rw [daysInMonth, hnext, Calendar.ofOrdinal_toOrdinal hvalid]

theorem nextMonth_wallAt (htime : 0 ≤ time ∧ time < day) {start : Calendar.Date} {k : Nat}
    (hvalid : (dateAt start k dayOfMonth).Valid) :
    nextMonth (wallAt (dateAt start k dayOfMonth).toOrdinal time) =
      wallAt (dateAt start (k + 1) (min dayOfMonth (lengthAt start (k + 1)))).toOrdinal time := by
  have hdate : dateOf (wallAt (dateAt start k dayOfMonth).toOrdinal time) =
      dateAt start k dayOfMonth := by
    rw [dateOf, ordinalOf_wallAt htime, Calendar.ofOrdinal_toOrdinal hvalid]
  have hsucc := monthAt_succ start k
  have hbounds := monthAt_bounds start (k + 1)
  have hyear : (monthAt start (k + 1)).1 =
      if (monthAt start k).2 + 1 > 12 then (monthAt start k).1 + 1 else (monthAt start k).1 := by
    rw [hsucc]
    split <;> rfl
  have hmonth : (monthAt start (k + 1)).2 =
      if (monthAt start k).2 + 1 > 12 then 1 else (monthAt start k).2 + 1 := by
    rw [hsucc]
    split <;> rfl
  have hlength := @daysInMonth_eq (monthAt start (k + 1)).1 _ hbounds.1 hbounds.2
  rw [nextMonth, hdate, wallAt_emod htime]
  change wallAt (Calendar.Date.mk (if (monthAt start k).2 + 1 > 12 then (monthAt start k).1 + 1
    else (monthAt start k).1) (if (monthAt start k).2 + 1 > 12 then 1 else (monthAt start k).2 + 1)
    (min dayOfMonth (daysInMonth (if (monthAt start k).2 + 1 > 12 then (monthAt start k).1 + 1
      else (monthAt start k).1) (if (monthAt start k).2 + 1 > 12 then 1
      else (monthAt start k).2 + 1)))).toOrdinal time = _
  rw [← hyear, ← hmonth, hlength]
  rfl

end Walls

def Shown (zone : Zone) (time ordinal : Int) : Prop :=
  zone.toLocal (instantAt zone time ordinal) = (wallAt ordinal time, false)

section Runs

variable {zones : ZoneTable} {timezone : Option String} {start : Calendar.Date} {time : Int}
  {repetition : Repeat} {after : Instant}

/-- The instant that the `k`-th repetition leads to, where no local time on the way is in a gap. -/
def visitedAt (zones : ZoneTable) (timezone : Option String) (start : Calendar.Date) (time : Int)
    (repetition : Repeat) (k : Nat) : Instant :=
  instantAt (resolveZone zones timezone) time (visitedDay start repetition k)

theorem addRepeat_visitedAt (hstart : start.Valid) (htime : 0 ≤ time ∧ time < day)
    (hrecurs : repetition.recurs) {k : Nat}
    (hshown : Shown (resolveZone zones timezone) time (visitedDay start repetition k)) :
    addRepeat zones (visitedAt zones timezone start time repetition k) repetition timezone =
      some (visitedAt zones timezone start time repetition (k + 1)) := by
  unfold addRepeat visitedAt
  dsimp only
  rw [hshown]
  cases repetition with
  | daily =>
    have hnext : start.toOrdinal + (k : Int) + 1 = start.toOrdinal + ((k + 1 : Nat) : Int) := by
      omega
    simp only [wallAt_add_day, instantAt, visitedDay, dueDay, hnext]
  | weekly =>
    have hnext : start.toOrdinal + 7 * (k : Int) + 7 =
        start.toOrdinal + 7 * ((k + 1 : Nat) : Int) := by
      omega
    simp only [wallAt_add, instantAt, visitedDay, dueDay, hnext]
  | weekdays =>
    simp only [skipWeekend_wallAt htime, instantAt, visitedDay, dueDay,
      Function.iterate_succ_apply']
  | monthly =>
    have hbounds := shortest_bounds hstart k
    simp only [visitedDay, nextMonth_wallAt htime (valid_dateAt hbounds.1 hbounds.2.2), instantAt,
      shortest]
  | once => cases hrecurs
  | other text => cases hrecurs

def DaysInOrder (zone : Zone) (start : Calendar.Date) (time : Int) : Prop :=
  ∀ earlier later, start.toOrdinal ≤ earlier → earlier < later →
    instantAt zone time earlier < instantAt zone time later

theorem visitedAt_lt (hstart : start.Valid) (hrecurs : repetition.recurs)
    (horder : DaysInOrder (resolveZone zones timezone) start time) {j k : Nat} (h : j < k) :
    visitedAt zones timezone start time repetition j <
      visitedAt zones timezone start time repetition k := by
  have hmono := strictMono_nat_of_lt_succ (visitedDay_lt_succ hstart hrecurs)
  refine horder _ _ ?_ (hmono h)
  rw [← visitedDay_zero hstart]
  exact hmono.monotone (Nat.zero_le j)

theorem repeatUntil_visitedAt (hstart : start.Valid) (htime : 0 ≤ time ∧ time < day)
    (hrecurs : repetition.recurs) (horder : DaysInOrder (resolveZone zones timezone) start time)
    {n : Nat} (hafter : after < visitedAt zones timezone start time repetition n) (further k : Nat)
    (hk : k < n) (hwithin : n ≤ k + further)
    (hshown : ∀ j, k ≤ j → j < n →
      Shown (resolveZone zones timezone) time (visitedDay start repetition j))
    (hbefore : ∀ j, k < j → j < n → visitedAt zones timezone start time repetition j ≤ after) :
    repeatUntil zones timezone repetition after further
        (visitedAt zones timezone start time repetition k) =
      some (visitedAt zones timezone start time repetition n) := by
  induction further generalizing k with
  | zero => omega
  | succ further ih =>
    have hlt := @visitedAt_lt zones timezone start time repetition hstart hrecurs horder k (k + 1)
      (Nat.lt_succ_self k)
    rw [repeatUntil, addRepeat_visitedAt hstart htime hrecurs (hshown k le_rfl hk)]
    dsimp only
    rw [if_neg (not_le.mpr hlt)]
    rcases Nat.lt_or_ge (k + 1) n with hnext | hlast
    · have hle := hbefore (k + 1) (Nat.lt_succ_self k) hnext
      rw [if_neg (not_lt.mpr hle)]
      exact ih (k + 1) hnext (by omega) (fun j hj => hshown j (by omega))
        (fun j hj => hbefore j (by omega))
    · obtain rfl : n = k + 1 := by omega
      rw [if_pos hafter]

theorem repeatUntil_found (hstart : start.Valid) (htime : 0 ≤ time ∧ time < day)
    (hrecurs : repetition.recurs)
    (hshown : ∀ j, Shown (resolveZone zones timezone) time (visitedDay start repetition j))
    {found : Instant} (further k : Nat)
    (h : repeatUntil zones timezone repetition after further
      (visitedAt zones timezone start time repetition k) = some found) :
    ∃ n, k < n ∧ n ≤ k + further ∧ found = visitedAt zones timezone start time repetition n ∧
      after < found := by
  induction further generalizing k with
  | zero => cases h
  | succ further ih =>
    rw [repeatUntil, addRepeat_visitedAt hstart htime hrecurs (hshown k)] at h
    dsimp only at h
    split at h
    · cases h
    · split at h
      · next hafter =>
        obtain rfl := Option.some.inj h
        exact ⟨k + 1, by omega, by omega, rfl, hafter⟩
      · obtain ⟨n, hlow, hhigh, hfound, hafter⟩ := ih (k + 1) h
        exact ⟨n, by omega, by omega, hfound, hafter⟩

/-- The instant at which the `k`-th repetition is due. -/
def dueAt (zone : Zone) (start : Calendar.Date) (time : Int) (repetition : Repeat) (k : Nat) :
    Instant :=
  instantAt zone time (dueDay start repetition k)

theorem dueAt_lt {zone : Zone} (hstart : start.Valid) (hrecurs : repetition.recurs)
    (horder : DaysInOrder zone start time) {j k : Nat} (h : j < k) :
    dueAt zone start time repetition j < dueAt zone start time repetition k := by
  have hmono := strictMono_nat_of_lt_succ (dueDay_lt_succ hstart hrecurs)
  refine horder _ _ ?_ (hmono h)
  rw [← dueDay_zero hstart repetition]
  exact hmono.monotone (Nat.zero_le j)

theorem start_le_visitedDay (hstart : start.Valid) (hrecurs : repetition.recurs) {k : Nat} :
    start.toOrdinal ≤ visitedDay start repetition k := by
  rw [← visitedDay_zero hstart]
  have hmono := strictMono_nat_of_lt_succ (visitedDay_lt_succ hstart hrecurs)
  exact hmono.monotone (Nat.zero_le k)

theorem visitedAt_le_dueAt (hstart : start.Valid) (hrecurs : repetition.recurs)
    (horder : DaysInOrder (resolveZone zones timezone) start time) {k : Nat} :
    visitedAt zones timezone start time repetition k ≤
      dueAt (resolveZone zones timezone) start time repetition k := by
  rcases (visitedDay_le_dueDay hstart).lt_or_eq with hlt | heq
  · exact (horder _ _ (start_le_visitedDay hstart hrecurs) hlt).le
  · rw [visitedAt, dueAt, heq]

theorem dueDay_lt_visitedDay (hstart : start.Valid) (hrecurs : repetition.recurs) {n m : Nat}
    (h : n < m) : dueDay start repetition n < visitedDay start repetition m := by
  cases repetition with
  | monthly =>
    have hbounds := shortest_bounds hstart m
    have hday := hstart.2.2.1
    have hlength := lengthAt_pos start n
    exact dateAt_lt h (by omega) ⟨hbounds.1, hbounds.2.2⟩
  | daily => exact strictMono_nat_of_lt_succ (dueDay_lt_succ hstart hrecurs) h
  | weekly => exact strictMono_nat_of_lt_succ (dueDay_lt_succ hstart hrecurs) h
  | weekdays => exact strictMono_nat_of_lt_succ (dueDay_lt_succ hstart hrecurs) h
  | once => cases hrecurs
  | other text => cases hrecurs

/-- The next due time is at most 400 repetitions away; on the way the day of the month is not lost
to a shorter month, and every local time is one that the zone shows. -/
structure Undisturbed (zone : Zone) (start : Calendar.Date) (time : Int) (repetition : Repeat)
    (after : Instant) : Prop where
  inOrder : DaysInOrder zone start time
  reached : ∃ n ≤ 400, after < dueAt zone start time repetition n ∧
    (∀ j < n, dueAt zone start time repetition j ≤ after) ∧ KeepsDay start repetition n ∧
    ∀ j < n, Shown zone time (visitedDay start repetition j)

def timeOf (hour minute : Nat) : Int := (hour * 3600 + minute * 60) * second

theorem timeOf_bounds {hour minute : Nat} (hhour : hour ≤ 23) (hminute : minute ≤ 59) :
    0 ≤ timeOf hour minute ∧ timeOf hour minute < day := by
  simp only [timeOf, day, second]
  omega

variable {dateKey timeLabel : String} {hour minute : Nat}

theorem zonedLocalToUtc_eq (hdate : parseDateKey dateKey = some start)
    (hlabel : parseTimeLabel timeLabel = some (hour, minute)) :
    zonedLocalToUtc zones dateKey timeLabel timezone =
      some (instantAt (resolveZone zones timezone) (timeOf hour minute) start.toOrdinal) := by
  have hwall : ofCivil start hour minute 0 = wallAt start.toOrdinal (timeOf hour minute) := by
    simp [ofCivil, wallAt, timeOf]
  simp only [zonedLocalToUtc, hdate, hlabel, hwall, instantAt, Option.bind_eq_bind,
    Option.bind_some]
  rfl

theorem computeNextTrigger_eq (hdate : parseDateKey dateKey = some start)
    (hlabel : parseTimeLabel timeLabel = some (hour, minute)) (hrecurs : repetition.recurs) :
    computeNextTrigger zones dateKey timeLabel timezone repetition after =
      if after < dueAt (resolveZone zones timezone) start (timeOf hour minute) repetition 0 then
        some (dueAt (resolveZone zones timezone) start (timeOf hour minute) repetition 0)
      else repeatUntil zones timezone repetition after 400
        (visitedAt zones timezone start (timeOf hour minute) repetition 0) := by
  have hstart := parseDateKey_valid hdate
  have honce : repetition ≠ .once := by
    rintro rfl
    cases hrecurs
  rw [computeNextTrigger, zonedLocalToUtc_eq hdate hlabel, dueAt, visitedAt,
    dueDay_zero hstart, visitedDay_zero hstart]
  simp only [honce, or_false, gt_iff_lt]

theorem isNext_of_undisturbed (hdate : parseDateKey dateKey = some start)
    (hlabel : parseTimeLabel timeLabel = some (hour, minute)) (hrecurs : repetition.recurs)
    (h : Undisturbed (resolveZone zones timezone) start (timeOf hour minute) repetition after) :
    IsNext (dueAt (resolveZone zones timezone) start (timeOf hour minute) repetition) after
      (computeNextTrigger zones dateKey timeLabel timezone repetition after) := by
  have hstart := parseDateKey_valid hdate
  obtain ⟨hhour, hminute⟩ := parseTimeLabel_le hlabel
  have htime := timeOf_bounds hhour hminute
  obtain ⟨horder, n, hwithin, hafter, hbefore, hkeeps, hshown⟩ := h
  have hfound : computeNextTrigger zones dateKey timeLabel timezone repetition after =
      some (dueAt (resolveZone zones timezone) start (timeOf hour minute) repetition n) := by
    rw [computeNextTrigger_eq hdate hlabel hrecurs]
    rcases Nat.eq_zero_or_pos n with rfl | hpos
    · rw [if_pos hafter]
    · have hvisited : visitedAt zones timezone start (timeOf hour minute) repetition n =
          dueAt (resolveZone zones timezone) start (timeOf hour minute) repetition n := by
        rw [visitedAt, dueAt, (visitedDay_eq_dueDay hstart).mpr hkeeps]
      rw [if_neg (not_lt.mpr (hbefore 0 hpos)), ← hvisited]
      refine repeatUntil_visitedAt hstart htime hrecurs horder (hvisited ▸ hafter) 400 0 hpos
        (by omega) (fun j _ hj => hshown j hj) fun j _ hj => ?_
      exact (visitedAt_le_dueAt hstart hrecurs horder).trans (hbefore j hj)
  refine ⟨n, hfound, hafter, fun j hj => ?_⟩
  rcases Nat.lt_or_ge n j with hlt | hle
  · exact (dueAt_lt hstart hrecurs horder hlt).le
  · rcases Nat.lt_or_eq_of_le hle with hlt | rfl
    · exact absurd (hbefore j hlt) (not_le.mpr hj)
    · exact le_rfl

theorem undisturbed_of_isNext (hdate : parseDateKey dateKey = some start)
    (hlabel : parseTimeLabel timeLabel = some (hour, minute)) (hrecurs : repetition.recurs)
    (horder : DaysInOrder (resolveZone zones timezone) start (timeOf hour minute))
    (hshown : ∀ j,
      Shown (resolveZone zones timezone) (timeOf hour minute) (visitedDay start repetition j))
    (h : IsNext (dueAt (resolveZone zones timezone) start (timeOf hour minute) repetition) after
      (computeNextTrigger zones dateKey timeLabel timezone repetition after)) :
    Undisturbed (resolveZone zones timezone) start (timeOf hour minute) repetition after := by
  have hstart := parseDateKey_valid hdate
  obtain ⟨hhour, hminute⟩ := parseTimeLabel_le hlabel
  have htime := timeOf_bounds hhour hminute
  obtain ⟨n, hfound, hafter, hfirst⟩ := h
  have hbefore : ∀ j < n,
      dueAt (resolveZone zones timezone) start (timeOf hour minute) repetition j ≤ after := by
    intro j hj
    by_contra hlate
    have hle := hfirst j (not_le.mp hlate)
    exact absurd (dueAt_lt hstart hrecurs horder hj) (not_lt.mpr hle)
  rcases Nat.eq_zero_or_pos n with rfl | hpos
  · exact ⟨horder, 0, Nat.zero_le _, hafter, hbefore,
      fun _ j hone hzero => by omega, fun j hj => by omega⟩
  · rw [computeNextTrigger_eq hdate hlabel hrecurs, if_neg (not_lt.mpr (hbefore 0 hpos))] at hfound
    obtain ⟨m, -, hwithin, hvisited, -⟩ :=
      repeatUntil_found hstart htime hrecurs hshown 400 0 hfound
    have hsame : m = n := by
      rcases Nat.lt_trichotomy m n with hlt | heq | hgt
      · have hle := (visitedAt_le_dueAt hstart hrecurs horder).trans (hbefore m hlt)
        rw [← hvisited] at hle
        exact absurd hafter (not_lt.mpr hle)
      · exact heq
      · have hlt := horder _ _ ((dueDay_zero hstart repetition).ge.trans
          ((strictMono_nat_of_lt_succ (dueDay_lt_succ hstart hrecurs)).monotone (Nat.zero_le n)))
          (dueDay_lt_visitedDay hstart hrecurs hgt)
        exact absurd hvisited hlt.ne
    subst hsame
    have hday : visitedDay start repetition m = dueDay start repetition m := by
      refine le_antisymm (visitedDay_le_dueDay hstart) (not_lt.mp fun hlt => ?_)
      have := horder _ _ (start_le_visitedDay hstart hrecurs) hlt
      exact absurd hvisited.symm this.ne
    exact ⟨horder, m, by omega, hafter, hbefore, (visitedDay_eq_dueDay hstart).mp hday,
      fun j _ => hshown j⟩

end Runs

def utcZones : ZoneTable := ⟨fun _ => some utc, utc⟩

theorem daysInOrder_utc {start : Calendar.Date} {time : Int} : DaysInOrder utc start time := by
  intro earlier later _ hlt
  change wallAt earlier time - 0 * second < wallAt later time - 0 * second
  simp only [wallAt, day, second]
  omega

theorem shown_utc {time : Int} : Shown utc time ordinal := by
  simp [Shown, instantAt, Zone.toUtc, Zone.toLocal, utc]

end AiBuddy.Reminders
