import Mathlib.Data.List.Flatten

/-!
# Groups of related items

A union-find over the positions of a list: the parents are a list of positions, a root is its own
parent, and a search halves the path it walks. The groups stand in the order of their first items,
and the items of a group in the order of the list.
-/

namespace Groups

def parentOf (parent : List Nat) (index : Nat) : Nat := parent.getD index index

/-- The root of a position, and the parents after the search. A path has no more steps than there
are positions, so their number is enough fuel. -/
def find : Nat → List Nat → Nat → Nat × List Nat
  | 0, parent, index => (index, parent)
  | fuel + 1, parent, index =>
    if parentOf parent index = index then (index, parent)
    else
      let halved := parent.set index (parentOf parent (parentOf parent index))
      find fuel halved (parentOf halved index)

def union (parent : List Nat) (pair : Nat × Nat) : List Nat :=
  let left := find parent.length parent pair.1
  let right := find parent.length left.2 pair.2
  if left.1 = right.1 then right.2 else right.2.set right.1 left.1

variable {α : Type}

def relatedPairs (related : α → α → Bool) : List (Nat × α) → List (Nat × Nat)
  | [] => []
  | left :: rest =>
    (rest.filter fun right => related left.2 right.2).map (fun right => (left.1, right.1)) ++
      relatedPairs related rest

def addTo (root : Nat) (item : α) : List (Nat × List α) → List (Nat × List α)
  | [] => [(root, [item])]
  | group :: rest =>
    if group.1 = root then (root, group.2 ++ [item]) :: rest else group :: addTo root item rest

def collect (fuel : Nat) : List Nat → List (Nat × List α) → List (Nat × α) → List (Nat × List α)
  | _, groups, [] => groups
  | parent, groups, (index, item) :: rest =>
    let found := find fuel parent index
    collect fuel found.2 (addTo found.1 item groups) rest

def unionGroups (related : α → α → Bool) (items : List α) : List (List α) :=
  let numbered := (List.range items.length).zip items
  let parent := (relatedPairs related numbered).foldl union (List.range items.length)
  (collect items.length parent [] numbered).map (·.2)

theorem perm_addTo (root : Nat) (item : α) (groups : List (Nat × List α)) :
    ((addTo root item groups).flatMap (·.2)).Perm (item :: groups.flatMap (·.2)) := by
  induction groups with
  | nil => simp [addTo]
  | cons group rest ih =>
    rw [addTo]
    by_cases hroot : group.1 = root
    · rw [if_pos hroot, List.flatMap_cons, List.flatMap_cons, List.append_assoc,
        List.singleton_append]
      exact List.perm_middle
    · rw [if_neg hroot, List.flatMap_cons, List.flatMap_cons]
      exact (List.Perm.append_left _ ih).trans List.perm_middle

theorem perm_collect (fuel : Nat) (parent : List Nat) (groups : List (Nat × List α))
    (items : List (Nat × α)) :
    ((collect fuel parent groups items).flatMap (·.2)).Perm
      (groups.flatMap (·.2) ++ items.map (·.2)) := by
  induction items generalizing parent groups with
  | nil => simp [collect]
  | cons pair rest ih =>
    obtain ⟨index, item⟩ := pair
    rw [collect]
    refine (ih _ _).trans ?_
    rw [List.map_cons]
    exact ((perm_addTo _ item groups).append_right _).trans List.perm_middle.symm

theorem perm_unionGroups (related : α → α → Bool) (items : List α) :
    (unionGroups related items).flatten.Perm items := by
  have hperm := perm_collect items.length ((relatedPairs related
    ((List.range items.length).zip items)).foldl union (List.range items.length)) []
    ((List.range items.length).zip items)
  rw [List.flatMap_nil, List.nil_append, List.map_snd_zip (by simp), List.flatMap_def] at hperm
  exact hperm

end Groups
