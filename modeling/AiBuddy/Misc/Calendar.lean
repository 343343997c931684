import Mathlib.Data.Int.Basic

/-!
# The proleptic Gregorian calendar

Dates and their ordinals, as the `datetime` module of Python counts them: day 1 is the first of
January of the year 1.
-/

namespace Calendar

structure Date where
  year : Int
  month : Nat
  day : Nat
  deriving DecidableEq

def isLeap (year : Int) : Bool := year % 4 = 0 ∧ (year % 100 ≠ 0 ∨ year % 400 = 0)

def daysInMonth (year : Int) (month : Nat) : Nat :=
  if month = 2 then if isLeap year then 29 else 28
  else if month = 4 ∨ month = 6 ∨ month = 9 ∨ month = 11 then 30
  else 31

def daysBeforeYear (year : Int) : Int :=
  let y := year - 1
  y * 365 + y / 4 - y / 100 + y / 400

/-- `_days_before_month`: the lengths of the months before it. -/
def daysBeforeMonth (year : Int) : Nat → Nat
  | 0 => 0
  | month + 1 => daysBeforeMonth year month + (if month = 0 then 0 else daysInMonth year month)

def Date.Valid (date : Date) : Prop :=
  1 ≤ date.month ∧ date.month ≤ 12 ∧ 1 ≤ date.day ∧ date.day ≤ daysInMonth date.year date.month

instance (date : Date) : Decidable date.Valid := inferInstanceAs (Decidable (_ ∧ _))

def Date.toOrdinal (date : Date) : Int :=
  daysBeforeYear date.year + daysBeforeMonth date.year date.month + date.day

/-- The month that `left` days of the year from the first of `month` on lead to, and the day
there. -/
def fromMonth (year : Int) : Nat → Nat → Nat → Date
  | 0, month, left => ⟨year, month, left + 1⟩
  | further + 1, month, left =>
    if left < daysInMonth year month then ⟨year, month, left + 1⟩
    else fromMonth year further (month + 1) (left - daysInMonth year month)

/-- `_ord2ymd`. The last day of a cycle of 4 or of 400 years is a fifth year of length one. -/
def ofOrdinal (ordinal : Int) : Date :=
  let n := ordinal - 1
  let n400 := n / 146097
  let n := n % 146097
  let n100 := n / 36524
  let n := n % 36524
  let n4 := n / 1461
  let n := n % 1461
  let n1 := n / 365
  let n := n % 365
  let year := n400 * 400 + n100 * 100 + n4 * 4 + n1
  if n1 = 4 ∨ n100 = 4 then ⟨year, 12, 31⟩ else fromMonth (year + 1) 11 1 n.toNat

/-- `date.weekday()`: Monday is 0. -/
def weekday (ordinal : Int) : Int := (ordinal + 6) % 7

variable {year : Int} {month : Nat}

theorem daysBeforeMonth_succ (h : 1 ≤ month) :
    daysBeforeMonth year (month + 1) = daysBeforeMonth year month + daysInMonth year month := by
  rw [daysBeforeMonth, if_neg (Nat.ne_of_gt h)]

theorem toOrdinal_fromMonth (further left : Nat) (h : 1 ≤ month) :
    (fromMonth year further month left).toOrdinal =
      daysBeforeYear year + daysBeforeMonth year month + left + 1 := by
  induction further generalizing month left with
  | zero =>
    simp only [fromMonth, Date.toOrdinal]
    omega
  | succ further ih =>
    rw [fromMonth]
    split
    · simp only [Date.toOrdinal]
      omega
    · next hlong =>
      rw [ih _ (by omega), daysBeforeMonth_succ h]
      omega

theorem daysBeforeYear_cycles {n400 n100 n4 n1 : Int} (h100 : 0 ≤ n100 ∧ n100 ≤ 3)
    (h4 : 0 ≤ n4 ∧ n4 ≤ 24) (h1 : 0 ≤ n1 ∧ n1 ≤ 3) :
    daysBeforeYear (n400 * 400 + n100 * 100 + n4 * 4 + n1 + 1) =
      n400 * 146097 + n100 * 36524 + n4 * 1461 + n1 * 365 := by
  have hyear : n400 * 400 + n100 * 100 + n4 * 4 + n1 + 1 - 1 =
      n400 * 400 + n100 * 100 + n4 * 4 + n1 := by omega
  have hfours : (n400 * 400 + n100 * 100 + n4 * 4 + n1) / 4 = n400 * 100 + n100 * 25 + n4 := by
    omega
  have hhundreds : (n400 * 400 + n100 * 100 + n4 * 4 + n1) / 100 = n400 * 4 + n100 := by omega
  have hcycles : (n400 * 400 + n100 * 100 + n4 * 4 + n1) / 400 = n400 := by omega
  simp only [daysBeforeYear]
  rw [hyear, hfours, hhundreds, hcycles]
  omega

theorem ediv_succ (n : Int) (k : Int) (hk : 0 < k) :
    n / k = (n - 1) / k + if n % k = 0 then 1 else 0 := by
  have hn := Int.mul_ediv_add_emod n k
  have hne : k ≠ 0 := by omega
  have hbound := Int.emod_nonneg n hne
  have hlt := Int.emod_lt_of_pos n hk
  split
  · next h =>
    have hpred : n - 1 = (k - 1) + k * (n / k - 1) := by
      rw [Int.mul_sub]
      omega
    have hzero : (k - 1) / k = 0 := Int.ediv_eq_zero_of_lt (by omega) (by omega)
    rw [hpred, Int.add_mul_ediv_left _ _ hne, hzero]
    omega
  · next h =>
    have hpred : n - 1 = (n % k - 1) + k * (n / k) := by omega
    have hzero : (n % k - 1) / k = 0 := Int.ediv_eq_zero_of_lt (by omega) (by omega)
    rw [hpred, Int.add_mul_ediv_left _ _ hne, hzero]
    omega

theorem toOrdinal_last (year : Int) :
    (⟨year, 12, 31⟩ : Date).toOrdinal = daysBeforeYear (year + 1) := by
  have hmonths : daysBeforeMonth year 12 = if isLeap year then 335 else 334 := by
    by_cases hleap : isLeap year = true <;> simp [daysBeforeMonth, daysInMonth, hleap]
  have hleap : isLeap year = true ↔ year % 4 = 0 ∧ (year % 100 ≠ 0 ∨ year % 400 = 0) :=
    decide_eq_true_iff
  have hfours := ediv_succ year 4 (by omega)
  have hhundreds := ediv_succ year 100 (by omega)
  have hcycles := ediv_succ year 400 (by omega)
  simp only [Date.toOrdinal, daysBeforeYear, hmonths, Int.add_sub_cancel]
  by_cases h4 : year % 4 = 0 <;> by_cases h100 : year % 100 = 0 <;>
    by_cases h400 : year % 400 = 0 <;>
    simp only [hleap, h4, h100, h400, if_true, if_false, true_and, false_and, ne_eq, not_true,
      not_false_eq_true, or_true, or_false] at hfours hhundreds hcycles ⊢ <;> omega

theorem le_daysBeforeMonth_end (year : Int) : 365 ≤ daysBeforeMonth year 13 := by
  by_cases hleap : isLeap year = true <;> simp [daysBeforeMonth, daysInMonth, hleap]

theorem valid_fromMonth {further left : Nat} (hmonth : 1 ≤ month) (hend : month + further = 12)
    (hleft : daysBeforeMonth year month + left < daysBeforeMonth year 13) :
    (fromMonth year further month left).Valid := by
  induction further generalizing month left with
  | zero =>
    obtain rfl : month = 12 := hend
    have hlast : daysBeforeMonth year 13 = daysBeforeMonth year 12 + daysInMonth year 12 :=
      daysBeforeMonth_succ hmonth
    refine ⟨hmonth, Nat.le_refl 12, Nat.succ_pos left, ?_⟩
    show left + 1 ≤ daysInMonth year 12
    omega
  | succ further ih =>
    rw [fromMonth]
    split
    · next hshort => exact ⟨hmonth, by show month ≤ 12; omega, Nat.succ_pos left, hshort⟩
    · next hlong =>
      apply ih (by omega) (by omega)
      rw [daysBeforeMonth_succ hmonth]
      omega

theorem valid_ofOrdinal (ordinal : Int) : (ofOrdinal ordinal).Valid := by
  unfold ofOrdinal
  dsimp only
  split
  · exact ⟨Nat.le_add_left 1 11, Nat.le_refl 12, Nat.le_add_left 1 30, Nat.le_refl 31⟩
  · apply valid_fromMonth (by omega) (by omega)
    have hyear := le_daysBeforeMonth_end
      ((ordinal - 1) / 146097 * 400 + (ordinal - 1) % 146097 / 36524 * 100 +
        (ordinal - 1) % 146097 % 36524 / 1461 * 4 +
        (ordinal - 1) % 146097 % 36524 % 1461 / 365 + 1)
    simp only [daysBeforeMonth, if_true, Nat.add_zero, Nat.zero_add] at hyear ⊢
    omega

theorem toOrdinal_ofOrdinal (ordinal : Int) : (ofOrdinal ordinal).toOrdinal = ordinal := by
  unfold ofOrdinal
  dsimp only
  generalize hn : ordinal - 1 = n
  have h400 := Int.mul_ediv_add_emod n 146097
  have hrest := Int.emod_nonneg n (show (146097 : Int) ≠ 0 by omega)
  have hrestLt := Int.emod_lt_of_pos n (show (0 : Int) < 146097 by omega)
  generalize n / 146097 = n400 at *
  generalize n % 146097 = n at *
  have h100 := Int.mul_ediv_add_emod n 36524
  have hrest' := Int.emod_nonneg n (show (36524 : Int) ≠ 0 by omega)
  have hrestLt' := Int.emod_lt_of_pos n (show (0 : Int) < 36524 by omega)
  generalize n / 36524 = n100 at *
  generalize n % 36524 = n' at *
  have h4 := Int.mul_ediv_add_emod n' 1461
  have hrest'' := Int.emod_nonneg n' (show (1461 : Int) ≠ 0 by omega)
  have hrestLt'' := Int.emod_lt_of_pos n' (show (0 : Int) < 1461 by omega)
  generalize n' / 1461 = n4 at *
  generalize n' % 1461 = n'' at *
  have h1 := Int.mul_ediv_add_emod n'' 365
  have hday := Int.emod_nonneg n'' (show (365 : Int) ≠ 0 by omega)
  have hdayLt := Int.emod_lt_of_pos n'' (show (0 : Int) < 365 by omega)
  generalize n'' / 365 = n1 at *
  generalize n'' % 365 = left at *
  split
  · next hlast =>
    rw [toOrdinal_last]
    rcases hlast with rfl | rfl
    · have hyear : n400 * 400 + n100 * 100 + n4 * 4 + 4 + 1 =
          n400 * 400 + n100 * 100 + (n4 + 1) * 4 + 0 + 1 := by omega
      rw [hyear, daysBeforeYear_cycles ⟨by omega, by omega⟩ ⟨by omega, by omega⟩
        ⟨by omega, by omega⟩]
      omega
    · have hyear : n400 * 400 + 4 * 100 + n4 * 4 + n1 + 1 =
          (n400 + 1) * 400 + 0 * 100 + n4 * 4 + n1 + 1 := by omega
      rw [hyear, daysBeforeYear_cycles ⟨by omega, by omega⟩ ⟨by omega, by omega⟩
        ⟨by omega, by omega⟩]
      omega
  · next hlast =>
    rw [toOrdinal_fromMonth 11 _ (by omega),
      daysBeforeYear_cycles ⟨by omega, by omega⟩ ⟨by omega, by omega⟩ ⟨by omega, by omega⟩]
    simp only [daysBeforeMonth, if_true]
    omega

def Date.Before (first second : Date) : Prop :=
  first.year < second.year ∨ first.year = second.year ∧
    (first.month < second.month ∨ first.month = second.month ∧ first.day < second.day)

theorem daysBeforeMonth_add_le (year : Int) {later : Nat} (hmonth : 1 ≤ month) (h : month < later) :
    daysBeforeMonth year month + daysInMonth year month ≤ daysBeforeMonth year later := by
  induction later, h using Nat.le_induction with
  | base => rw [daysBeforeMonth_succ hmonth]
  | succ later hlater ih =>
    rw [daysBeforeMonth_succ (by omega)]
    omega

theorem daysBeforeYear_mono {first second : Int} (h : first ≤ second) :
    daysBeforeYear first ≤ daysBeforeYear second := by
  simp only [daysBeforeYear]
  omega

theorem toOrdinal_bounds {date : Date} (h : date.Valid) :
    daysBeforeYear date.year < date.toOrdinal ∧
      date.toOrdinal ≤ daysBeforeYear (date.year + 1) := by
  obtain ⟨hmonth, hlast, hday, hlength⟩ := h
  have hyear : (daysBeforeMonth date.year 12 : Int) + 31 =
      daysBeforeYear (date.year + 1) - daysBeforeYear date.year := by
    rw [← toOrdinal_last, Date.toOrdinal]
    push_cast
    omega
  have hdecember : daysInMonth date.year 12 = 31 := rfl
  have hend : daysBeforeMonth date.year 13 = _ := daysBeforeMonth_succ (show 1 ≤ 12 by omega)
  have hbefore := daysBeforeMonth_add_le date.year hmonth (show date.month < 13 by omega)
  simp only [Date.toOrdinal]
  omega

theorem toOrdinal_lt {first second : Date} (hfirst : first.Valid) (hsecond : second.Valid)
    (h : first.Before second) : first.toOrdinal < second.toOrdinal := by
  rcases h with hyear | ⟨hyear, hmonth | ⟨hmonth, hday⟩⟩
  · have hle := (toOrdinal_bounds hfirst).2
    have hlt := (toOrdinal_bounds hsecond).1
    have hmono := daysBeforeYear_mono (show first.year + 1 ≤ second.year by omega)
    omega
  · have hle := daysBeforeMonth_add_le first.year hfirst.1 hmonth
    have hlength := hfirst.2.2.2
    have hday := hsecond.2.2.1
    simp only [Date.toOrdinal, ← hyear]
    omega
  · simp only [Date.toOrdinal, ← hyear, ← hmonth]
    omega

theorem eq_of_toOrdinal_eq {first second : Date} (hfirst : first.Valid) (hsecond : second.Valid)
    (h : first.toOrdinal = second.toOrdinal) : first = second := by
  have hnot : ¬ first.Before second := fun hlt => by
    have := toOrdinal_lt hfirst hsecond hlt
    omega
  have hnot' : ¬ second.Before first := fun hlt => by
    have := toOrdinal_lt hsecond hfirst hlt
    omega
  obtain ⟨year, month, day⟩ := first
  obtain ⟨year', month', day'⟩ := second
  simp only [Date.Before] at hnot hnot'
  rw [Date.mk.injEq]
  omega

theorem ofOrdinal_toOrdinal {date : Date} (h : date.Valid) : ofOrdinal date.toOrdinal = date :=
  eq_of_toOrdinal_eq (valid_ofOrdinal _) h (toOrdinal_ofOrdinal _)

end Calendar
