import Mathlib.Data.List.Sort
import AiBuddy.Misc.Keyed

/-!
# Sorted sets

`ZADD`, `ZREM`, `ZSCORE` and `ZRANGEBYSCORE` over texts with integer scores. Where scores are
equal the members come in the order of their texts.
-/

namespace Redis

structure SortedSet where
  entries : List (String × Int)
  nodup : (entries.map Prod.fst).Nodup

namespace SortedSet

def empty : SortedSet := ⟨[], List.nodup_nil⟩

def members (z : SortedSet) : List String := z.entries.map Prod.fst

instance : Membership String SortedSet := ⟨fun z member => member ∈ z.members⟩

instance (member : String) (z : SortedSet) : Decidable (member ∈ z) :=
  inferInstanceAs (Decidable (member ∈ z.members))

def score (z : SortedSet) (member : String) : Option Int :=
  (Keyed.find? Prod.fst member z.entries).map Prod.snd

def add (z : SortedSet) (member : String) (score : Int) : SortedSet where
  entries := Keyed.replaceOrAppend Prod.fst (member, score) z.entries
  nodup := Keyed.nodup_replaceOrAppend z.nodup (member, score)

def remove (z : SortedSet) (member : String) : SortedSet where
  entries := z.entries.filter fun entry => entry.1 ≠ member
  nodup := z.nodup.sublist (List.filter_sublist.map Prod.fst)

def precedes (first second : String × Int) : Prop :=
  first.2 < second.2 ∨ (first.2 = second.2 ∧ first.1 ≤ second.1)

instance : DecidableRel precedes := fun _ _ => inferInstanceAs (Decidable (_ ∨ _))

def rangeByScore (z : SortedSet) (low high : Int) : List String :=
  ((z.entries.filter fun entry => low ≤ entry.2 ∧ entry.2 ≤ high).insertionSort precedes).map
    Prod.fst

variable {z : SortedSet} {member other : String} {value : Int}

theorem mem_iff : member ∈ z ↔ member ∈ z.entries.map Prod.fst := Iff.rfl

@[simp] theorem notMem_empty : member ∉ empty := List.not_mem_nil

@[simp] theorem mem_add : other ∈ z.add member value ↔ other = member ∨ other ∈ z := by
  rw [mem_iff, mem_iff]
  show other ∈ (Keyed.replaceOrAppend Prod.fst (member, value) z.entries).map Prod.fst ↔ _
  by_cases h : member ∈ z.entries.map Prod.fst
  · rw [Keyed.map_replaceOrAppend_of_mem h]
    refine ⟨.inr, ?_⟩
    rintro (rfl | hmem)
    · exact h
    · exact hmem
  · rw [Keyed.replaceOrAppend_of_notMem h, List.map_append, List.mem_append, or_comm]
    simp only [List.map_cons, List.map_nil, List.mem_singleton]

@[simp] theorem mem_remove : other ∈ z.remove member ↔ other ≠ member ∧ other ∈ z := by
  simp only [mem_iff, remove, List.mem_map, List.mem_filter, decide_eq_true_eq]
  constructor
  · rintro ⟨entry, ⟨hmem, hne⟩, rfl⟩
    exact ⟨hne, entry, hmem, rfl⟩
  · rintro ⟨hne, entry, hmem, rfl⟩
    exact ⟨entry, ⟨hmem, hne⟩, rfl⟩

theorem score_eq_some : z.score member = some value ↔ (member, value) ∈ z.entries := by
  rw [score, Option.map_eq_some_iff]
  constructor
  · rintro ⟨⟨name, found⟩, hfind, rfl⟩
    obtain ⟨hmem, rfl⟩ := Keyed.find?_eq_some hfind
    exact hmem
  · intro hmem
    exact ⟨_, (Keyed.find?_eq_some_iff z.nodup).mpr ⟨hmem, rfl⟩, rfl⟩

theorem score_isSome : (z.score member).isSome = true ↔ member ∈ z := by
  rw [score, Option.isSome_map, Keyed.find?_isSome_iff]
  exact Iff.rfl

theorem mem_rangeByScore {low high : Int} :
    member ∈ z.rangeByScore low high ↔
      ∃ value, z.score member = some value ∧ low ≤ value ∧ value ≤ high := by
  simp only [rangeByScore, List.mem_map, (List.perm_insertionSort _ _).mem_iff, List.mem_filter,
    decide_eq_true_eq, score_eq_some]
  constructor
  · rintro ⟨⟨name, found⟩, ⟨hmem, hrange⟩, rfl⟩
    exact ⟨found, hmem, hrange⟩
  · rintro ⟨found, hmem, hrange⟩
    exact ⟨(member, found), ⟨hmem, hrange⟩, rfl⟩

end SortedSet

end Redis
