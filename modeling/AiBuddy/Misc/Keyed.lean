import Mathlib.Data.List.Nodup

/-!
# Lists of keyed records

Finding a record by its key, and replacing it in place or appending it, over any
type of records and any key function. Where the keys are numbers, a list is kept in
their order.
-/

namespace Keyed

variable {α κ : Type} [DecidableEq κ] (key : α → κ)

def find? (k : κ) (items : List α) : Option α := items.find? (fun item => key item = k)

def replaceOrAppend (item : α) : List α → List α
  | [] => [item]
  | first :: rest =>
    if key first = key item then item :: rest else first :: replaceOrAppend item rest

variable {key}

theorem find?_eq_some {k : κ} {items : List α} {item : α} (h : find? key k items = some item) :
    item ∈ items ∧ key item = k := by
  refine ⟨List.mem_of_find?_eq_some h, ?_⟩
  have hkey := List.find?_some h
  simpa using hkey

theorem find?_eq_none {k : κ} {items : List α} (h : find? key k items = none) :
    k ∉ items.map key := by
  intro hmem
  obtain ⟨item, hitem, rfl⟩ := List.mem_map.mp hmem
  have hne := List.find?_eq_none.mp h item hitem
  simp at hne

theorem find?_eq_some_iff {k : κ} {items : List α} {item : α} (hnodup : (items.map key).Nodup) :
    find? key k items = some item ↔ item ∈ items ∧ key item = k := by
  refine ⟨find?_eq_some, ?_⟩
  rintro ⟨hmem, rfl⟩
  cases hfind : find? key (key item) items with
  | none => exact absurd (List.mem_map_of_mem hmem) (find?_eq_none hfind)
  | some found =>
    obtain ⟨hfound, hkey⟩ := find?_eq_some hfind
    exact congrArg some (List.inj_on_of_nodup_map hnodup hfound hmem hkey)

theorem find?_isSome_iff {k : κ} {items : List α} :
    (find? key k items).isSome = true ↔ k ∈ items.map key := by
  rw [find?, List.find?_isSome, List.mem_map]
  simp only [decide_eq_true_eq]

theorem replaceOrAppend_of_notMem {item : α} {items : List α} (h : key item ∉ items.map key) :
    replaceOrAppend key item items = items ++ [item] := by
  induction items with
  | nil => rfl
  | cons first rest ih =>
    rw [List.map_cons, List.mem_cons, not_or] at h
    rw [replaceOrAppend, if_neg (Ne.symm h.1), ih h.2, List.cons_append]

theorem map_replaceOrAppend_of_mem {item : α} {items : List α} (h : key item ∈ items.map key) :
    (replaceOrAppend key item items).map key = items.map key := by
  induction items with
  | nil => cases h
  | cons first rest ih =>
    by_cases hfirst : key first = key item
    · rw [replaceOrAppend, if_pos hfirst, List.map_cons, List.map_cons, hfirst]
    · rw [replaceOrAppend, if_neg hfirst, List.map_cons, List.map_cons, ih]
      rcases List.mem_cons.mp h with hsame | hrest
      · exact absurd hsame.symm hfirst
      · exact hrest

theorem nodup_replaceOrAppend {items : List α} (h : (items.map key).Nodup) (item : α) :
    ((replaceOrAppend key item items).map key).Nodup := by
  by_cases hmem : key item ∈ items.map key
  · rw [map_replaceOrAppend_of_mem hmem]
    exact h
  · rw [replaceOrAppend_of_notMem hmem, List.map_append]
    exact List.nodup_append_comm.mp (h.cons hmem)

theorem mem_replaceOrAppend_self (item : α) (items : List α) :
    item ∈ replaceOrAppend key item items := by
  induction items with
  | nil => exact List.mem_singleton_self item
  | cons first rest ih =>
    by_cases hfirst : key first = key item
    · rw [replaceOrAppend, if_pos hfirst]
      exact List.mem_cons_self
    · rw [replaceOrAppend, if_neg hfirst]
      exact List.mem_cons_of_mem _ ih

theorem mem_replaceOrAppend_of_ne {item other : α} {items : List α} (h : other ∈ items)
    (hkey : key other ≠ key item) : other ∈ replaceOrAppend key item items := by
  induction items with
  | nil => cases h
  | cons first rest ih =>
    by_cases hfirst : key first = key item
    · rw [replaceOrAppend, if_pos hfirst]
      rcases List.mem_cons.mp h with rfl | hrest
      · exact absurd hfirst hkey
      · exact List.mem_cons_of_mem _ hrest
    · rw [replaceOrAppend, if_neg hfirst]
      rcases List.mem_cons.mp h with rfl | hrest
      · exact List.mem_cons_self
      · exact List.mem_cons_of_mem _ (ih hrest)

theorem find?_replaceOrAppend {k : κ} {item : α} {items : List α} :
    find? key k (replaceOrAppend key item items) =
      if key item = k then some item else find? key k items := by
  induction items with
  | nil =>
    rw [replaceOrAppend, find?, List.find?_cons]
    split <;> simp_all [find?]
  | cons first rest ih =>
    unfold find? at ih ⊢
    by_cases hfirst : key first = key item
    · rw [replaceOrAppend, if_pos hfirst, List.find?_cons, List.find?_cons, hfirst]
      split <;> simp_all
    · rw [replaceOrAppend, if_neg hfirst, List.find?_cons, List.find?_cons, ih]
      split
      · next hk => rw [if_neg fun hitem => hfirst ((of_decide_eq_true hk).trans hitem.symm)]
      · rfl

theorem replaceOrAppend_eq_self_iff {item : α} {items : List α} :
    replaceOrAppend key item items = items ↔ find? key (key item) items = some item := by
  induction items with
  | nil => simp [replaceOrAppend, find?]
  | cons first rest ih =>
    unfold find? at ih ⊢
    by_cases hfirst : key first = key item
    · rw [replaceOrAppend, if_pos hfirst, List.find?_cons_of_pos (by simpa using hfirst)]
      simp [eq_comm]
    · rw [replaceOrAppend, if_neg hfirst, List.find?_cons_of_neg (by simpa using hfirst), ← ih]
      simp

theorem filter_replaceOrAppend_self {item : α} {items : List α}
    (h : (items.filter fun other => key other = key item).length ≤ 1) :
    (replaceOrAppend key item items).filter (fun other => key other = key item) = [item] := by
  induction items with
  | nil => simp [replaceOrAppend]
  | cons first rest ih =>
    by_cases hfirst : key first = key item
    · rw [List.filter_cons_of_pos (by simpa using hfirst), List.length_cons] at h
      have hrest : rest.filter (fun other => key other = key item) = [] :=
        List.eq_nil_of_length_eq_zero (by omega)
      rw [replaceOrAppend, if_pos hfirst, List.filter_cons_of_pos (by simp), hrest]
    · rw [List.filter_cons_of_neg (by simpa using hfirst)] at h
      rw [replaceOrAppend, if_neg hfirst, List.filter_cons_of_neg (by simpa using hfirst), ih h]

theorem filter_replaceOrAppend_of_ne {k : κ} {item : α} {items : List α} (h : key item ≠ k) :
    (replaceOrAppend key item items).filter (fun other => key other = k) =
      items.filter fun other => key other = k := by
  induction items with
  | nil => simp [replaceOrAppend, h]
  | cons first rest ih =>
    by_cases hfirst : key first = key item
    · rw [replaceOrAppend, if_pos hfirst, List.filter_cons_of_neg (by simpa using h),
        List.filter_cons_of_neg (by simpa [hfirst] using h)]
    · rw [replaceOrAppend, if_neg hfirst, List.filter_cons, List.filter_cons, ih]

theorem mem_replaceOrAppend {item other : α} {items : List α} (hnodup : (items.map key).Nodup)
    (h : other ∈ replaceOrAppend key item items) :
    other = item ∨ (other ∈ items ∧ key other ≠ key item) := by
  induction items with
  | nil => exact .inl (List.mem_singleton.mp h)
  | cons first rest ih =>
    obtain ⟨hnotMem, hrestNodup⟩ := List.nodup_cons.mp hnodup
    by_cases hfirst : key first = key item
    · rw [replaceOrAppend, if_pos hfirst] at h
      rcases List.mem_cons.mp h with rfl | hrest
      · exact .inl rfl
      · refine .inr ⟨List.mem_cons_of_mem _ hrest, fun hsame => hnotMem ?_⟩
        rw [hfirst, ← hsame]
        exact List.mem_map_of_mem hrest
    · rw [replaceOrAppend, if_neg hfirst] at h
      rcases List.mem_cons.mp h with rfl | hrest
      · exact .inr ⟨List.mem_cons_self, hfirst⟩
      · rcases ih hrestNodup hrest with rfl | ⟨hmem, hne⟩
        · exact .inl rfl
        · exact .inr ⟨List.mem_cons_of_mem _ hmem, hne⟩

theorem foldl_replaceOrAppend_of_nodup {items more : List α}
    (h : ((items ++ more).map key).Nodup) :
    more.foldl (fun items item => replaceOrAppend key item items) items = items ++ more := by
  induction more generalizing items with
  | nil => exact (List.append_nil items).symm
  | cons item rest ih =>
    have hnew : key item ∉ items.map key := by
      rw [List.map_append, List.nodup_append'] at h
      exact fun hmem => h.2.2 hmem (List.mem_map_of_mem List.mem_cons_self)
    rw [List.foldl_cons, replaceOrAppend_of_notMem hnew, ih]
    · rw [List.append_assoc, List.singleton_append]
    · rw [List.append_assoc, List.singleton_append]
      exact h

omit [DecidableEq κ] in
theorem eq_of_key {items : List α} (hnodup : (items.map key).Nodup) {item other : α}
    (hitem : item ∈ items) (hother : other ∈ items) (h : key item = key other) : item = other :=
  List.inj_on_of_nodup_map hnodup hitem hother h

section Modify

variable (key)

def modify (k : κ) (accepts : α → Bool) (change : α → α) (items : List α) : List α :=
  items.map fun item => if key item = k ∧ accepts item = true then change item else item

variable {key}

theorem map_modify {β : Type} {k : κ} {accepts : α → Bool} {change : α → α} {f : α → β}
    (h : ∀ item, f (change item) = f item) (items : List α) :
    (modify key k accepts change items).map f = items.map f := by
  rw [modify, List.map_map]
  apply List.map_congr_left
  intro item _
  simp only [Function.comp_apply]
  split
  · exact h item
  · rfl

theorem mem_modify {k : κ} {accepts : α → Bool} {change : α → α} {items : List α} {item : α}
    (h : item ∈ modify key k accepts change items) :
    item ∈ items ∨ ∃ before ∈ items, key before = k ∧ accepts before = true ∧
      item = change before := by
  obtain ⟨before, hbefore, rfl⟩ := List.mem_map.mp h
  by_cases haccepts : key before = k ∧ accepts before = true
  · rw [if_pos haccepts]
    exact .inr ⟨before, hbefore, haccepts.1, haccepts.2, rfl⟩
  · rw [if_neg haccepts]
    exact .inl hbefore

theorem modify_eq_self {k : κ} {accepts : α → Bool} {change : α → α} {items : List α}
    (h : ∀ item ∈ items, key item = k → accepts item = false) :
    modify key k accepts change items = items := by
  rw [modify]
  refine (List.map_congr_left fun item hmem => ?_).trans (List.map_id items)
  refine if_neg fun haccepts => ?_
  rw [h item hmem haccepts.1] at haccepts
  cases haccepts.2

theorem find?_modify {k k' : κ} {accepts : α → Bool} {change : α → α}
    (h : ∀ item, key (change item) = key item) (items : List α) :
    find? key k (modify key k' accepts change items) =
      (find? key k items).map fun item =>
        if key item = k' ∧ accepts item = true then change item else item := by
  rw [find?, modify, List.find?_map]
  congr 1
  apply congrArg (List.find? · items)
  funext item
  simp only [Function.comp_apply]
  split
  · rw [h item]
  · rfl

end Modify

section Sorted

variable (rank : α → Nat)

def insertSorted (item : α) : List α → List α
  | [] => [item]
  | first :: rest =>
    if rank first ≤ rank item then first :: insertSorted item rest else item :: first :: rest

variable {rank}

theorem mem_insertSorted {item other : α} {items : List α} :
    other ∈ insertSorted rank item items ↔ other = item ∨ other ∈ items := by
  induction items with
  | nil => simp [insertSorted]
  | cons first rest ih =>
    rw [insertSorted]
    split
    · rw [List.mem_cons, ih, List.mem_cons]
      exact or_left_comm
    · exact List.mem_cons

def sort (rank : α → Nat) (items : List α) : List α :=
  items.foldl (fun sorted item => insertSorted rank item sorted) []

theorem insertSorted_of_le {item : α} {items : List α}
    (h : ∀ other ∈ items, rank other ≤ rank item) :
    insertSorted rank item items = items ++ [item] := by
  induction items with
  | nil => rfl
  | cons first rest ih =>
    rw [List.forall_mem_cons] at h
    rw [insertSorted, if_pos h.1, ih h.2, List.cons_append]

theorem sort_of_sorted {items : List α}
    (h : items.Pairwise fun first later => rank first ≤ rank later) : sort rank items = items := by
  have hfold : ∀ sorted rest : List α,
      (sorted ++ rest).Pairwise (fun first later => rank first ≤ rank later) →
      rest.foldl (fun sorted item => insertSorted rank item sorted) sorted = sorted ++ rest := by
    intro sorted rest hordered
    induction rest generalizing sorted with
    | nil => exact (List.append_nil sorted).symm
    | cons item rest ih =>
      have hlast : ∀ other ∈ sorted, rank other ≤ rank item := fun other hother =>
        (List.pairwise_append.mp hordered).2.2 other hother item List.mem_cons_self
      rw [List.foldl_cons, insertSorted_of_le hlast, ih, List.append_assoc]
      · rfl
      · rw [List.append_assoc]
        exact hordered
  exact hfold [] items h

theorem sorted_insertSorted {item : α} {items : List α}
    (h : items.Pairwise fun first later => rank first ≤ rank later) :
    (insertSorted rank item items).Pairwise fun first later => rank first ≤ rank later := by
  induction items with
  | nil => exact List.pairwise_singleton _ _
  | cons first rest ih =>
    obtain ⟨hfirst, hrest⟩ := List.pairwise_cons.mp h
    rw [insertSorted]
    split
    · next hle =>
      refine .cons ?_ (ih hrest)
      intro later hlater
      rcases mem_insertSorted.mp hlater with rfl | hmem
      · exact hle
      · exact hfirst later hmem
    · next hlt =>
      refine .cons ?_ h
      intro later hlater
      rcases List.mem_cons.mp hlater with rfl | hmem
      · exact Nat.le_of_not_le hlt
      · exact Nat.le_trans (Nat.le_of_not_le hlt) (hfirst later hmem)

theorem increasing_insertSorted {item : α} {items : List α}
    (h : items.Pairwise fun first later => rank first < rank later)
    (hnew : rank item ∉ items.map rank) :
    (insertSorted rank item items).Pairwise fun first later => rank first < rank later := by
  induction items with
  | nil => exact List.pairwise_singleton _ _
  | cons first rest ih =>
    obtain ⟨hfirst, hrest⟩ := List.pairwise_cons.mp h
    rw [List.map_cons, List.mem_cons, not_or] at hnew
    rw [insertSorted]
    split
    · next hle =>
      have hlt : rank first < rank item := Nat.lt_of_le_of_ne hle (Ne.symm hnew.1)
      refine .cons ?_ (ih hrest hnew.2)
      intro later hlater
      rcases mem_insertSorted.mp hlater with rfl | hmem
      · exact hlt
      · exact hfirst later hmem
    · next hlt =>
      refine .cons ?_ h
      intro later hlater
      rcases List.mem_cons.mp hlater with rfl | hmem
      · exact Nat.lt_of_not_le hlt
      · exact Nat.lt_trans (Nat.lt_of_not_le hlt) (hfirst later hmem)

theorem perm_insertSorted {item : α} {items : List α} :
    (insertSorted rank item items).Perm (item :: items) := by
  induction items with
  | nil => exact .refl _
  | cons first rest ih =>
    rw [insertSorted]
    split
    · exact (ih.cons first).trans (.swap item first rest)
    · exact .refl _

theorem perm_sort (items : List α) : (sort rank items).Perm items := by
  have hfold : ∀ rest sorted : List α,
      (rest.foldl (fun sorted item => insertSorted rank item sorted) sorted).Perm
        (sorted ++ rest) := by
    intro rest
    induction rest with
    | nil =>
      intro sorted
      rw [List.append_nil]
      exact .refl _
    | cons item rest ih =>
      intro sorted
      refine (ih _).trans (((perm_insertSorted).append_right rest).trans ?_)
      exact List.perm_middle.symm
  exact hfold items []

theorem mem_sort {item : α} {items : List α} : item ∈ sort rank items ↔ item ∈ items :=
  (perm_sort items).mem_iff

theorem sorted_sort (items : List α) :
    (sort rank items).Pairwise fun first later => rank first ≤ rank later := by
  have hfold : ∀ rest sorted : List α,
      sorted.Pairwise (fun first later => rank first ≤ rank later) →
      (rest.foldl (fun sorted item => insertSorted rank item sorted) sorted).Pairwise
        fun first later => rank first ≤ rank later := by
    intro rest
    induction rest with
    | nil => exact fun sorted h => h
    | cons item rest ih => exact fun sorted h => ih _ (sorted_insertSorted h)
  exact hfold items [] .nil

theorem sort_eq_of_perm {items others : List α} (hperm : items.Perm others)
    (hnodup : (others.map rank).Nodup) : sort rank items = sort rank others := by
  have hsorted : (sort rank items).Perm (sort rank others) :=
    (perm_sort items).trans (hperm.trans (perm_sort others).symm)
  refine hsorted.eq_of_pairwise (fun item other hitem hother hle hge => ?_) (sorted_sort items)
    (sorted_sort others)
  exact eq_of_key hnodup (hperm.mem_iff.mp (mem_sort.mp hitem)) (mem_sort.mp hother)
    (Nat.le_antisymm hle hge)

end Sorted

end Keyed
