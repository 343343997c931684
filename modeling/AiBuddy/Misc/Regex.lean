import Mathlib.Data.List.Basic

/-!
# Backtracking patterns

Patterns as Python's `re` runs them: from a position of a text a pattern gives the ends of its
matches, the preferred one first, and a search takes the first match of the leftmost position that
has one. Groups are named by an arbitrary type.
-/

namespace Regex

variable {α G : Type}

/-- A position of a text: what is before it, from the nearest character on, what is after it, and
the groups that were read, latest first. -/
structure Cursor (α G : Type) where
  before : List α := []
  rest : List α
  groups : List (G × List α) := []
  deriving DecidableEq

abbrev Pattern (α G : Type) := Cursor α G → List (Cursor α G)

def one (p : α → Bool) : Pattern α G := fun at_ =>
  match at_.rest with
  | c :: rest => if p c then [{ at_ with before := c :: at_.before, rest }] else []
  | [] => []

def empty : Pattern α G := fun at_ => [at_]

def seq : List (Pattern α G) → Pattern α G
  | [] => empty
  | first :: later => fun at_ => (first at_).flatMap (seq later)

/-- `a|b`. -/
def alt (choices : List (Pattern α G)) : Pattern α G := fun at_ =>
  choices.flatMap fun choice => choice at_

/-- `a?`. -/
def opt (p : Pattern α G) : Pattern α G := alt [p, empty]

def manyFrom (p : α → Bool) (groups : List (G × List α)) :
    List α → List α → List (Cursor α G)
  | before, [] => [⟨before, [], groups⟩]
  | before, c :: rest =>
    (if p c then manyFrom p groups (c :: before) rest else []) ++ [⟨before, c :: rest, groups⟩]

/-- `c*`, the longest first. -/
def many (p : α → Bool) : Pattern α G := fun at_ => manyFrom p at_.groups at_.before at_.rest

/-- `c+`. -/
def many1 (p : α → Bool) : Pattern α G := seq [one p, many p]

/-- `(?P<name>a)`. -/
def group (name : G) (p : Pattern α G) : Pattern α G := fun at_ =>
  (p at_).map fun stop =>
    { stop with groups :=
        (name, at_.rest.take (at_.rest.length - stop.rest.length)) :: stop.groups }

def check (holds : List α → List α → Bool) : Pattern α G := fun at_ =>
  if holds at_.before at_.rest then [at_] else []

structure Found (α G : Type) where
  before : List α
  stop : Cursor α G
  deriving DecidableEq

def Found.group? [BEq G] (found : Found α G) (name : G) : Option (List α) :=
  found.stop.groups.lookup name

def searchFrom (p : Pattern α G) (before : List α) : List α → Option (Found α G)
  | [] => (p ⟨before, [], []⟩).head?.map (⟨before, ·⟩)
  | c :: rest =>
    match (p ⟨before, c :: rest, []⟩).head? with
    | some stop => some ⟨before, stop⟩
    | none => searchFrom p (c :: before) rest

def search (p : Pattern α G) (text : List α) : Option (Found α G) := searchFrom p [] text

/-- The matches of `pattern.finditer(text)`, for patterns that read at least one character. -/
def findIter (p : Pattern α G) : Nat → List α → List α → List (Found α G)
  | 0, _, _ => []
  | further + 1, before, rest =>
    match searchFrom p before rest with
    | none => []
    | some found => found :: findIter p further found.stop.before found.stop.rest

def findAll (p : Pattern α G) (text : List α) : List (Found α G) :=
  findIter p (text.length + 1) [] text

def subFrom (p : Pattern α G) (replacement : List α) : Nat → List α → List α → List α
  | 0, _, rest => rest
  | _ + 1, _, [] => []
  | further + 1, before, c :: rest =>
    match (p ⟨before, c :: rest, []⟩).head? with
    | some stop => replacement ++ subFrom p replacement further stop.before stop.rest
    | none => c :: subFrom p replacement further (c :: before) rest

/-- `pattern.sub(replacement, text)`, for patterns that read at least one character. -/
def sub (p : Pattern α G) (replacement text : List α) : List α :=
  subFrom p replacement text.length [] text

def Keeps (inv : Cursor α G → Prop) (p : Pattern α G) : Prop :=
  ∀ at_, inv at_ → ∀ stop ∈ p at_, inv stop

def OfGroups (inv : Cursor α G → Prop) : Prop :=
  ∀ a b : Cursor α G, a.groups = b.groups → inv a → inv b

variable {inv : Cursor α G → Prop}

theorem mem_one {p : α → Bool} {at_ stop : Cursor α G} :
    stop ∈ one p at_ ↔ ∃ c rest, at_.rest = c :: rest ∧ p c = true ∧
      stop = { at_ with before := c :: at_.before, rest } := by
  unfold one
  cases hrest : at_.rest with
  | nil => simp
  | cons c rest =>
    dsimp only
    split
    case isTrue hc => simp [hc]
    case isFalse hc =>
      simp only [List.not_mem_nil, List.cons.injEq, false_iff, not_exists]
      rintro d more ⟨⟨rfl, -⟩, hd, -⟩
      exact hc hd

theorem mem_seq_cons {first : Pattern α G} {later : List (Pattern α G)} {at_ stop : Cursor α G} :
    stop ∈ seq (first :: later) at_ ↔ ∃ mid ∈ first at_, stop ∈ seq later mid :=
  List.mem_flatMap

theorem mem_seq_nil {at_ stop : Cursor α G} : stop ∈ seq ([] : List (Pattern α G)) at_ ↔
    stop = at_ := List.mem_singleton

theorem mem_alt {choices : List (Pattern α G)} {at_ stop : Cursor α G} :
    stop ∈ alt choices at_ ↔ ∃ choice ∈ choices, stop ∈ choice at_ := List.mem_flatMap

theorem keeps_empty : Keeps inv empty := by
  intro at_ hat stop hstop
  rwa [List.mem_singleton.mp hstop]

theorem keeps_one (hgroups : OfGroups inv) (p : α → Bool) : Keeps inv (one p) := by
  intro at_ hat stop hstop
  obtain ⟨c, rest, -, -, rfl⟩ := mem_one.mp hstop
  exact hgroups at_ _ rfl hat

theorem keeps_seq {patterns : List (Pattern α G)} (h : ∀ p ∈ patterns, Keeps inv p) :
    Keeps inv (seq patterns) := by
  induction patterns with
  | nil => exact keeps_empty
  | cons first later ih =>
    rw [List.forall_mem_cons] at h
    intro at_ hat stop hstop
    obtain ⟨mid, hmid, hstop⟩ := mem_seq_cons.mp hstop
    exact ih h.2 mid (h.1 at_ hat mid hmid) stop hstop

theorem keeps_alt {choices : List (Pattern α G)} (h : ∀ p ∈ choices, Keeps inv p) :
    Keeps inv (alt choices) := by
  intro at_ hat stop hstop
  obtain ⟨choice, hchoice, hstop⟩ := mem_alt.mp hstop
  exact h choice hchoice at_ hat stop hstop

theorem keeps_opt {p : Pattern α G} (h : Keeps inv p) : Keeps inv (opt p) :=
  keeps_alt (by simpa using ⟨h, keeps_empty⟩)

theorem groups_of_mem_manyFrom {p : α → Bool} {groups : List (G × List α)} {before rest : List α}
    {stop : Cursor α G} (h : stop ∈ manyFrom p groups before rest) : stop.groups = groups := by
  induction rest generalizing before with
  | nil => rw [List.mem_singleton.mp h]
  | cons c rest ih =>
    rw [manyFrom, List.mem_append] at h
    rcases h with h | h
    · split at h
      · exact ih h
      · cases h
    · rw [List.mem_singleton.mp h]

theorem keeps_many (hgroups : OfGroups inv) (p : α → Bool) : Keeps inv (many p) :=
  fun at_ hat stop hstop => hgroups at_ stop (groups_of_mem_manyFrom hstop).symm hat

theorem keeps_many1 (hgroups : OfGroups inv) (p : α → Bool) : Keeps inv (many1 p) :=
  keeps_seq (by simpa using ⟨keeps_one hgroups p, keeps_many hgroups p⟩)

theorem keeps_check (holds : List α → List α → Bool) : Keeps inv (check holds) := by
  intro at_ hat stop hstop
  unfold check at hstop
  split at hstop
  · rwa [List.mem_singleton.mp hstop]
  · cases hstop

theorem keeps_group {name : G} {p : Pattern α G}
    (h : ∀ at_, inv at_ → ∀ stop ∈ p at_,
      inv { stop with groups :=
        (name, at_.rest.take (at_.rest.length - stop.rest.length)) :: stop.groups }) :
    Keeps inv (group name p) := by
  intro at_ hat stop hstop
  obtain ⟨mid, hmid, rfl⟩ := List.mem_map.mp hstop
  exact h at_ hat mid hmid

theorem searchFrom_mem {p : Pattern α G} {before rest : List α} {found : Found α G}
    (h : searchFrom p before rest = some found) :
    ∃ more, found.stop ∈ p ⟨found.before, more, []⟩ := by
  induction rest generalizing before with
  | nil =>
    obtain ⟨stop, hstop, rfl⟩ := Option.map_eq_some_iff.mp h
    exact ⟨[], List.mem_of_head? hstop⟩
  | cons c rest ih =>
    rw [searchFrom] at h
    split at h
    case h_1 stop hstop =>
      cases h
      exact ⟨c :: rest, List.mem_of_head? hstop⟩
    case h_2 => exact ih h

theorem Keeps.found {p : Pattern α G} (h : Keeps inv p)
    (hstart : ∀ before rest, inv ⟨before, rest, []⟩) {before rest : List α} {found : Found α G}
    (hfound : searchFrom p before rest = some found) : inv found.stop := by
  obtain ⟨more, hmem⟩ := searchFrom_mem hfound
  exact h _ (hstart _ _) _ hmem

end Regex
