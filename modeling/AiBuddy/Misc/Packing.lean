import Mathlib.Data.List.Basic
import Mathlib.Algebra.Order.Group.Defs
import Mathlib.Algebra.BigOperators.Group.List.Basic
import Mathlib.Algebra.GroupWithZero.Nat
import Mathlib.Data.List.TakeWhile

/-!
# Greedy packing of pieces

Pieces are joined to one part until the next piece would make the part too large; then the part is
closed and the piece starts the next one.  A piece is never taken apart.  What is too large is an
arbitrary predicate: nothing here needs it to be monotone.
-/

namespace Packing

variable {α : Type} (isOver : List α → Bool)

/-- The parts that come of `pieces` when the open part holds `current`. -/
def packFrom (current : List α) : List (List α) → List (List α)
  | [] => if current.isEmpty then [] else [current]
  | piece :: pieces =>
    if !current.isEmpty && isOver (current ++ piece) then current :: packFrom piece pieces
    else packFrom (current ++ piece) pieces

def split (items : List α) : List (List α) := packFrom isOver [] (items.map ([·]))

theorem flatten_packFrom (current : List α) (pieces : List (List α)) :
    (packFrom isOver current pieces).flatten = current ++ pieces.flatten := by
  induction pieces generalizing current with
  | nil => cases current <;> simp [packFrom]
  | cons piece pieces ih =>
    rw [packFrom]
    split
    · rw [List.flatten_cons, ih, List.flatten_cons]
    · rw [ih, List.flatten_cons, List.append_assoc]

theorem flatten_split (items : List α) : (split isOver items).flatten = items := by
  rw [split, flatten_packFrom, List.nil_append]
  induction items with
  | nil => rfl
  | cons item items ih => simp [ih]

def Fits (part : List α) : Prop := 2 ≤ part.length → isOver part = false

theorem fits_nil : Fits isOver ([] : List α) := fun h => absurd h (by simp)

theorem fits_singleton {item : α} : Fits isOver [item] := fun h => absurd h (by simp)

theorem fits_packFrom {current : List α} {pieces : List (List α)} (hcurrent : Fits isOver current)
    (hpieces : ∀ piece ∈ pieces, Fits isOver piece) :
    ∀ part ∈ packFrom isOver current pieces, Fits isOver part := by
  induction pieces generalizing current with
  | nil =>
    intro part hpart
    rw [packFrom] at hpart
    split at hpart
    · exact absurd hpart (List.not_mem_nil)
    · rwa [List.mem_singleton.mp hpart]
  | cons piece pieces ih =>
    have hpiece := hpieces piece List.mem_cons_self
    have hlater := fun p hp => hpieces p (List.mem_cons_of_mem piece hp)
    intro part hpart
    rw [packFrom] at hpart
    split at hpart
    case isTrue =>
      rcases List.mem_cons.mp hpart with rfl | hmem
      · exact hcurrent
      · exact ih hpiece hlater part hmem
    case isFalse hopen =>
      refine ih ?_ hlater part hpart
      cases current with
      | nil => exact hpiece
      | cons item current =>
        intro _
        simpa using hopen

theorem fits_split (items : List α) : ∀ part ∈ split isOver items, Fits isOver part := by
  refine fits_packFrom isOver (fits_nil isOver) fun piece hpiece => ?_
  obtain ⟨item, -, rfl⟩ := List.mem_map.mp hpiece
  exact fits_singleton isOver

theorem packFrom_open (current : List α) (pieces : List (List α)) (hcurrent : current ≠ []) :
    ∃ later rest, packFrom isOver current pieces = (current ++ later) :: rest := by
  induction pieces generalizing current with
  | nil => exact ⟨[], [], by simp [packFrom, hcurrent]⟩
  | cons piece pieces ih =>
    rw [packFrom]
    split
    · exact ⟨[], _, by rw [List.append_nil]⟩
    · obtain ⟨later, rest, h⟩ := ih (current ++ piece) (by simp [hcurrent])
      exact ⟨piece ++ later, rest, by rw [h, List.append_assoc]⟩

/-- `part` of `parts` holds the whole of `piece`, which comes after `before`. -/
def Kept (parts : List (List α)) (before piece : List α) : Prop :=
  ∃ earlier part rest left right, parts = earlier ++ part :: rest ∧
    part = left ++ piece ++ right ∧ earlier.flatten ++ left = before

theorem kept_packFrom (current : List α) (before : List (List α)) (piece : List α)
    (after : List (List α)) (hpiece : piece ≠ []) :
    Kept (packFrom isOver current (before ++ piece :: after)) (current ++ before.flatten)
      piece := by
  induction before generalizing current with
  | nil =>
    rw [List.nil_append, packFrom]
    split
    case isTrue =>
      obtain ⟨later, rest, h⟩ := packFrom_open isOver piece after hpiece
      exact ⟨[current], piece ++ later, rest, [], later, by rw [h]; rfl, rfl, by simp⟩
    case isFalse =>
      obtain ⟨later, rest, h⟩ := packFrom_open isOver (current ++ piece) after (by simp [hpiece])
      exact ⟨[], _, rest, current, later, h, rfl, by simp⟩
  | cons first before ih =>
    rw [List.cons_append, packFrom, List.flatten_cons]
    split
    case isTrue =>
      obtain ⟨earlier, part, rest, left, right, hparts, hpart, hleft⟩ := ih first
      exact ⟨current :: earlier, part, rest, left, right, by rw [hparts]; rfl, hpart,
        by rw [List.flatten_cons, List.append_assoc, hleft]⟩
    case isFalse =>
      rw [← List.append_assoc]
      exact ih (current ++ first)

end Packing

/-!
## Bounds over every interval of a log

A log lists entries with a time and a weight, oldest first. A limit over every interval of one
length is kept by looking, at each new entry, at the entries of the interval that ends there.
-/

namespace Sliding

variable {E T : Type}

def total (weight : E → Nat) (log : List E) : Nat := (log.map weight).sum

section Total

variable (weight : E → Nat)

theorem total_append (log more : List E) :
    total weight (log ++ more) = total weight log + total weight more := by
  rw [total, List.map_append, List.sum_append, total, total]

theorem total_singleton (entry : E) : total weight [entry] = weight entry :=
  List.sum_singleton

theorem total_filter_le (p : E → Bool) (log : List E) :
    total weight (log.filter p) ≤ total weight log := by
  induction log with
  | nil => exact Nat.le_refl _
  | cons entry log ih =>
    rw [List.filter_cons]
    split <;> simp only [total, List.map_cons, List.sum_cons] at ih ⊢ <;> omega

theorem total_one (log : List E) : total (fun _ => 1) log = log.length := by
  simp [total]

end Total

def expire [LT T] [DecidableLT T] (time : E → T) (cutoff : T) (log : List E) : List E :=
  log.dropWhile fun entry => time entry < cutoff

theorem exists_expired [LT T] [DecidableLT T] (time : E → T) (cutoff : T) (log : List E) :
    ∃ expired, log = expired ++ expire time cutoff log ∧
      ∀ entry ∈ expired, time entry < cutoff := by
  refine ⟨log.takeWhile fun entry => time entry < cutoff,
    List.takeWhile_append_dropWhile.symm, fun entry hentry => ?_⟩
  simpa using List.mem_takeWhile_imp hentry

theorem expire_map [LT T] [DecidableLT T] (time : E → T) (cutoff : T) (log : List E) :
    (log.map time).dropWhile (fun t => t < cutoff) = (expire time cutoff log).map time := by
  rw [List.dropWhile_map]
  rfl

theorem expire_eq_filter [LinearOrder T] {time : E → T} (cutoff : T) {log : List E}
    (hordered : (log.map time).Pairwise (· ≤ ·)) :
    expire time cutoff log = log.filter fun entry => cutoff ≤ time entry := by
  induction log with
  | nil => rfl
  | cons entry log ih =>
    rw [List.map_cons, List.pairwise_cons] at hordered
    obtain ⟨hfirst, hlog⟩ := hordered
    rw [expire, List.dropWhile_cons, List.filter_cons]
    by_cases hexpired : time entry < cutoff
    · rw [if_pos (decide_eq_true hexpired), if_neg (by simpa using hexpired)]
      exact ih hlog
    · rw [if_neg (by simpa using hexpired), if_pos (decide_eq_true (not_lt.mp hexpired))]
      congr 1
      refine (List.filter_eq_self.mpr fun later hlater => decide_eq_true ?_).symm
      exact (not_lt.mp hexpired).trans (hfirst _ (List.mem_map_of_mem hlater))

section Intervals

variable [AddCommGroup T] [LinearOrder T] [IsOrderedAddMonoid T]

/-- The entries of the closed interval of length `span` from `start`. -/
def within (time : E → T) (span start : T) (log : List E) : List E :=
  log.filter fun entry => start ≤ time entry ∧ time entry ≤ start + span

def Bounded (time : E → T) (weight : E → Nat) (span : T) (limit : Nat) (log : List E) : Prop :=
  ∀ start, total weight (within time span start log) ≤ limit

theorem Bounded.append {time : E → T} {weight : E → Nat} {span : T} {limit : Nat}
    {expired recent : List E} (h : Bounded time weight span limit (expired ++ recent)) {entry : E}
    (hexpired : ∀ other ∈ expired, time other < time entry - span)
    (hfits : total weight recent + weight entry ≤ limit) :
    Bounded time weight span limit (expired ++ recent ++ [entry]) := by
  intro start
  have hold := h start
  rw [within] at hold ⊢
  rw [List.filter_append, total_append]
  by_cases hinside : start ≤ time entry ∧ time entry ≤ start + span
  · have hnone : (expired.filter fun other =>
        start ≤ time other ∧ time other ≤ start + span) = [] := by
      refine List.filter_eq_nil_iff.mpr fun other hother => ?_
      have hstart : time entry - span ≤ start := sub_le_iff_le_add.mpr hinside.2
      simpa using fun hge => absurd (hexpired other hother) (not_lt.mpr (hstart.trans hge))
    have hrecent := total_filter_le weight
      (fun other => start ≤ time other ∧ time other ≤ start + span) recent
    rw [List.filter_append, hnone, List.nil_append, List.filter_cons,
      if_pos (decide_eq_true hinside), List.filter_nil, total_singleton]
    omega
  · rw [List.filter_cons, if_neg (by simpa using hinside), List.filter_nil]
    exact hold

end Intervals

section Periods

variable {D : Type} [DecidableEq D] (period : E → D)

def during (d : D) (log : List E) : List E := log.filter fun entry => period entry = d

variable {period} in
theorem during_eq_nil {d : D} {log : List E} (h : ∀ entry ∈ log, period entry ≠ d) :
    during period d log = [] :=
  List.filter_eq_nil_iff.mpr fun entry hentry => by simpa using h entry hentry

theorem during_append_self (log : List E) (entry : E) :
    during period (period entry) (log ++ [entry]) =
      during period (period entry) log ++ [entry] := by
  simp [during]

end Periods

end Sliding
