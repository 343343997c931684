import Mathlib.Data.List.Basic
import AiBuddy.Misc.Rounding

/-!
# The days of the steps

`services/goals/agents/scheduler.py`: where the steps of a plan lie in its span. The quotient that
is rounded is exact.
-/

namespace AiBuddy.Goals

open Rounding

def slotAfter (count span index last : Int) : Int :=
  min span (max (1 + halfEven (index * (span - 1)) (count - 1)) (last + 1))

def slotsFrom (count span : Int) : Nat → Int → Int → List Int
  | 0, _, _ => []
  | left + 1, index, last =>
    let slot := slotAfter count span index last
    slot :: slotsFrom count span left (index + 1) slot

def calendarSlots (count span : Int) : List Int :=
  if count ≤ 0 then []
  else
    let span := max span count
    if count = 1 then [1]
    else
      let slots := slotsFrom count span count.toNat 0 0
      slots.set (slots.length - 1) span

end AiBuddy.Goals

/-!
## Even slots

The clamps of the loop change nothing: the rounded slots of two steps or more increase, and the
last one is the end of the span.
-/

namespace AiBuddy.Goals

open Rounding

def evenSlot (count span index : Int) : Int := 1 + halfEven (index * (span - 1)) (count - 1)

variable {count span : Int}

theorem evenSlot_zero (hcount : 2 ≤ count) : evenSlot count span 0 = 1 := by
  have hzero := halfEven_mul (by omega : 0 < count - 1) 0
  rw [evenSlot, Int.zero_mul]
  rw [Int.mul_zero] at hzero
  omega

theorem evenSlot_last (hcount : 2 ≤ count) : evenSlot count span (count - 1) = span := by
  rw [evenSlot, halfEven_mul (by omega)]
  omega

theorem evenSlot_step (hcount : 2 ≤ count) (span index : Int) :
    (span - 1) / (count - 1) ≤ evenSlot count span (index + 1) - evenSlot count span index ∧
      evenSlot count span (index + 1) - evenSlot count span index ≤
        (span - 1) / (count - 1) + 1 := by
  have hstep := halfEven_step (by omega : 0 < count - 1) (span - 1) index
  unfold evenSlot
  omega

theorem evenSlot_lt (hcount : 2 ≤ count) (hspan : count ≤ span) (index : Int) :
    evenSlot count span index < evenSlot count span (index + 1) := by
  have hgap : 1 ≤ (span - 1) / (count - 1) :=
    (Int.le_ediv_iff_mul_le (by omega)).mpr (by omega)
  have hstep := evenSlot_step hcount span index
  omega

theorem evenSlot_le (hcount : 2 ≤ count) (hspan : count ≤ span) (index : Int) (more : Nat) :
    evenSlot count span index ≤ evenSlot count span (index + more) := by
  induction more with
  | zero => rw [Int.ofNat_zero, Int.add_zero]
  | succ more ih =>
    have hlt := evenSlot_lt hcount hspan (index + more)
    rw [Int.natCast_add, Int.natCast_one, ← Int.add_assoc]
    omega

theorem slotsFrom_eq (hcount : 2 ≤ count) (hspan : count ≤ span) (left : Nat) (index last : Int)
    (hleft : index + left = count) (hlast : last < evenSlot count span index) :
    slotsFrom count span left index last =
      (List.range left).map fun i : Nat => evenSlot count span (index + i) := by
  induction left generalizing index last with
  | zero => rfl
  | succ left ih =>
    have hend : evenSlot count span index ≤ span := by
      have hle := evenSlot_le hcount hspan index left
      rwa [show index + left = count - 1 by omega, evenSlot_last hcount] at hle
    have hslot : slotAfter count span index last = evenSlot count span index := by
      unfold slotAfter
      rw [← evenSlot]
      omega
    rw [slotsFrom, hslot, ih (index + 1) _ (by omega) (evenSlot_lt hcount hspan index),
      List.range_succ_eq_map, List.map_cons, List.map_map]
    refine congrArg₂ _ (by simp) (List.map_congr_left fun i _ => ?_)
    rw [Function.comp_apply, Nat.succ_eq_add_one, Int.natCast_add, Int.natCast_one,
      Int.add_assoc, Int.add_comm 1]

theorem calendarSlots_eq (hcount : 2 ≤ count) : calendarSlots count span =
    (List.range count.toNat).map fun i : Nat => evenSlot count (max span count) i := by
  obtain ⟨n, rfl⟩ := Int.eq_ofNat_of_zero_le (by omega : 0 ≤ count)
  obtain ⟨k, rfl⟩ : ∃ k, n = k + 1 := ⟨n - 1, by omega⟩
  have hloop := slotsFrom_eq hcount (Int.le_max_right span _) (k + 1) 0 0 (by omega)
    (by rw [evenSlot_zero hcount]; omega)
  unfold calendarSlots
  rw [if_neg (by omega), if_neg (by omega), Int.toNat_natCast, hloop]
  simp only [Int.zero_add, List.length_map, List.length_range, Nat.add_sub_cancel]
  refine List.ext_getElem? fun i => ?_
  rw [List.getElem?_set]
  split
  · next hi =>
    subst hi
    rw [if_pos (by simp), List.getElem?_map, List.getElem?_range (by omega), Option.map_some,
      show (k : Int) = ((k + 1 : Nat) : Int) - 1 by omega, evenSlot_last hcount]
  · rfl

/-- The slots of two steps or more: one for each step, from the first day to the last one of the
span, each after the one before it, and no gap more than one day longer than another. -/
theorem calendarSlots_even (count span : Int) (hcount : 2 ≤ count) :
    (calendarSlots count span).length = count ∧
      (calendarSlots count span).head? = some 1 ∧
      (calendarSlots count span).getLast? = some (max span count) ∧
      (calendarSlots count span).Pairwise (· < ·) ∧
      ∀ i j a b c d, (calendarSlots count span)[i]? = some a →
        (calendarSlots count span)[i + 1]? = some b → (calendarSlots count span)[j]? = some c →
          (calendarSlots count span)[j + 1]? = some d → b - a ≤ d - c + 1 := by
  have hspan : count ≤ max span count := Int.le_max_right span count
  have hslot : ∀ {i : Nat} {a : Int}, (calendarSlots count span)[i]? = some a →
      a = evenSlot count (max span count) i := by
    intro i a hi
    rw [calendarSlots_eq hcount, List.getElem?_map] at hi
    obtain ⟨j, hj, rfl⟩ := Option.map_eq_some_iff.mp hi
    rw [(List.getElem?_eq_some_iff.mp hj).2.symm, List.getElem_range]
  refine ⟨?_, ?_, ?_, ?_, ?_⟩
  · rw [calendarSlots_eq hcount, List.length_map, List.length_range]
    omega
  · obtain ⟨n, hn⟩ : ∃ n, count.toNat = n + 1 := ⟨count.toNat - 1, by omega⟩
    rw [calendarSlots_eq hcount, hn, List.range_succ_eq_map, List.map_cons, List.head?_cons]
    exact congrArg some (evenSlot_zero hcount)
  · obtain ⟨n, hn⟩ : ∃ n, count.toNat = n + 1 := ⟨count.toNat - 1, by omega⟩
    rw [calendarSlots_eq hcount, hn, List.range_succ, List.map_append, List.map_singleton,
      List.getLast?_concat, show (n : Int) = count - 1 by omega, evenSlot_last hcount]
  · rw [calendarSlots_eq hcount, List.pairwise_map]
    refine List.pairwise_lt_range.imp fun {i j} hlt => ?_
    have hle := evenSlot_le hcount hspan (i + 1) (j - (i + 1))
    rw [show (i : Int) + 1 + ((j - (i + 1) : Nat) : Int) = j by omega] at hle
    exact Int.lt_of_lt_of_le (evenSlot_lt hcount hspan i) hle
  · intro i j a b c d ha hb hc hd
    rw [hslot ha, hslot hb, hslot hc, hslot hd]
    have hi := evenSlot_step hcount (max span count) i
    have hj := evenSlot_step hcount (max span count) j
    rw [Int.natCast_add, Int.natCast_add, Int.natCast_one]
    omega

theorem calendarSlots_even_sample :
    (calendarSlots 4 8).length = (4 : Int) ∧ (calendarSlots 4 8).head? = some 1 ∧
      (calendarSlots 4 8).getLast? = some (max 8 4) ∧ (calendarSlots 4 8).Pairwise (· < ·) ∧
      ∀ i j a b c d, (calendarSlots 4 8)[i]? = some a → (calendarSlots 4 8)[i + 1]? = some b →
        (calendarSlots 4 8)[j]? = some c → (calendarSlots 4 8)[j + 1]? = some d →
          b - a ≤ d - c + 1 :=
  calendarSlots_even 4 8 (by decide)

end AiBuddy.Goals
