import Mathlib.Algebra.BigOperators.Group.List.Basic
import Mathlib.Algebra.GroupWithZero.Nat
import Mathlib.Data.List.Nodup

/-!
# Counting items by key

A counter sends an item to the key it counts under, or to none. Over keys that are listed once
each, the counts and what no key counts are the whole list.
-/

namespace Counting

variable {α κ : Type} [DecidableEq κ]

def countOf (counter : α → Option κ) (items : List α) (key : κ) : Nat :=
  items.countP fun item => counter item = some key

def uncounted (counter : α → Option κ) (items : List α) : Nat :=
  items.countP fun item => (counter item).isNone

theorem sum_indicator {keys : List κ} {key : κ} :
    (keys.map fun other => if key = other then 1 else 0).sum = keys.count key := by
  induction keys with
  | nil => rfl
  | cons other keys ih =>
    rw [List.map_cons, List.sum_cons, ih, List.count_cons, Nat.add_comm]
    congr 1
    by_cases h : key = other
    · rw [if_pos h, if_pos (beq_iff_eq.mpr h.symm)]
    · rw [if_neg h, if_neg (fun heq => h (beq_iff_eq.mp heq).symm)]

theorem sum_countOf_add_uncounted {keys : List κ} (hnodup : keys.Nodup)
    (hall : ∀ key, key ∈ keys) (counter : α → Option κ) (items : List α) :
    (keys.map (countOf counter items)).sum + uncounted counter items = items.length := by
  induction items with
  | nil =>
    have hzero : countOf counter ([] : List α) = fun _ => 0 := rfl
    simp [hzero, uncounted]
  | cons item items ih =>
    have hcons : ∀ key, countOf counter (item :: items) key =
        countOf counter items key + if counter item = some key then 1 else 0 := by
      intro key
      simp only [countOf, List.countP_cons, decide_eq_true_eq]
    have hnone : uncounted counter (item :: items) =
        uncounted counter items + if counter item = none then 1 else 0 := by
      simp only [uncounted, List.countP_cons, Option.isNone_iff_eq_none]
    have hsum : (keys.map (countOf counter (item :: items))).sum =
        (keys.map (countOf counter items)).sum +
          (keys.map fun key => if counter item = some key then 1 else 0).sum := by
      rw [← List.sum_map_add, List.map_congr_left fun key _ => hcons key]
    rw [hsum, hnone, List.length_cons, ← ih]
    cases hcounter : counter item with
    | none =>
      have hzero : (keys.map fun key => if (none : Option κ) = some key then 1 else 0).sum = 0 :=
        by simp
      rw [hzero, if_pos rfl]
      omega
    | some key =>
      have hone := (sum_indicator).trans (List.count_eq_one_of_mem hnodup (hall key))
      simp only [Option.some.injEq, reduceCtorEq, if_false]
      omega

omit [DecidableEq κ] in
theorem uncounted_eq_zero_iff {counter : α → Option κ} {items : List α} :
    uncounted counter items = 0 ↔ ∀ item ∈ items, counter item ≠ none := by
  simp [uncounted, List.countP_eq_zero]

end Counting

/-!
## One of several similar items

Items are taken one by one. An item that is similar to one that is held is dropped, or it takes the
place of the first one it is similar to, which is dropped instead. The similarity need not be
transitive, so an item that takes a place may be similar to another one that is held.
-/

namespace Dedup

variable {α : Type} (similar better : α → α → Bool)

def merge : List α → α → List α × Bool
  | [], item => ([item], false)
  | existing :: held, item =>
    if similar existing item then ((if better item existing then item else existing) :: held, true)
    else (existing :: (merge held item).1, (merge held item).2)

def Clean : List α → α → Prop
  | [], _ => True
  | existing :: held, item =>
    if similar existing item then
      better item existing = true → ∀ other ∈ held, similar other item = false
    else Clean held item

theorem length_merge (held : List α) (item : α) :
    (merge similar better held item).1.length +
      (if (merge similar better held item).2 then 1 else 0) = held.length + 1 := by
  induction held with
  | nil => rfl
  | cons existing held ih =>
    rw [merge]
    split
    · rfl
    · dsimp only
      rw [List.length_cons, List.length_cons, ← ih]
      omega

theorem mem_merge {held : List α} {item other : α}
    (h : other ∈ (merge similar better held item).1) : other = item ∨ other ∈ held := by
  induction held with
  | nil => exact .inl (List.mem_singleton.mp h)
  | cons existing held ih =>
    rw [merge] at h
    split at h
    · rcases List.mem_cons.mp h with rfl | hold
      · split
        · exact .inl rfl
        · exact .inr List.mem_cons_self
      · exact .inr (List.mem_cons_of_mem _ hold)
    · rcases List.mem_cons.mp h with rfl | hlater
      · exact .inr List.mem_cons_self
      · exact (ih hlater).imp_right (List.mem_cons_of_mem _)

theorem pairwise_merge (hsymm : ∀ a b, similar a b = similar b a) {held : List α} {item : α}
    (h : held.Pairwise fun a b => similar a b = false) (hclean : Clean similar better held item) :
    (merge similar better held item).1.Pairwise fun a b => similar a b = false := by
  induction held with
  | nil => exact List.pairwise_singleton _ _
  | cons existing held ih =>
    rw [List.pairwise_cons] at h
    rw [merge]
    rw [Clean] at hclean
    split
    case isTrue hsimilar =>
      rw [if_pos hsimilar] at hclean
      refine List.pairwise_cons.mpr ⟨fun other hother => ?_, h.2⟩
      split
      case isTrue hbetter => rw [hsymm]; exact hclean hbetter other hother
      case isFalse => exact h.1 other hother
    case isFalse hsimilar =>
      rw [if_neg hsimilar] at hclean
      refine List.pairwise_cons.mpr ⟨fun other hother => ?_, ih h.2 hclean⟩
      rcases mem_merge similar better hother with rfl | hheld
      · exact Bool.eq_false_iff.mpr hsimilar
      · exact h.1 other hheld

theorem nodup_eraseDups [DecidableEq α] (items : List α) : items.eraseDups.Nodup := by
  induction hlength : items.length using Nat.strongRecOn generalizing items with
  | ind length ih =>
    cases items with
    | nil => exact .nil
    | cons item items =>
      rw [List.eraseDups_cons, List.nodup_cons]
      have hfewer : (items.filter fun other => !other == item).length < length := by
        rw [← hlength, List.length_cons]
        exact Nat.lt_succ_of_le (List.length_filter_le _ items)
      refine ⟨?_, ih _ hfewer _ rfl⟩
      rw [List.mem_eraseDups, List.mem_filter]
      simp

end Dedup
