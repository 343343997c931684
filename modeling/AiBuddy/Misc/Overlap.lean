import Mathlib.Data.List.Basic
import Mathlib.Data.List.Chain
import Mathlib.Data.List.Nodup

/-!
# Blocks that may overlap in one item

A list is cut into blocks of consecutive items. Where a block is closed, its last item may be
carried over into the next one.  When a block is closed, and whether it carries, is arbitrary.
-/

namespace Overlap

variable {α : Type}

structure Block (α : Type) where
  carried : List α
  fresh : List α

namespace Block

def items (block : Block α) : List α := block.carried ++ block.fresh

def add (block : Block α) (item : α) : Block α := { block with fresh := block.fresh ++ [item] }

def next (block : Block α) (carries : Bool) (item : α) : Block α where
  carried := if carries then block.items.getLast?.toList else []
  fresh := [item]

@[simp] theorem items_add (block : Block α) (item : α) :
    (block.add item).items = block.items ++ [item] := by simp [items, add]

theorem next_eq (block : Block α) (carries : Bool) (item : α) :
    block.next carries item = ⟨[], [item]⟩ ∨
      ∃ last, block.items.getLast? = some last ∧ block.next carries item = ⟨[last], [item]⟩ := by
  cases carries with
  | false => exact .inl rfl
  | true =>
    cases hlast : block.items.getLast? with
    | none => exact .inl (by rw [next, hlast]; rfl)
    | some last => exact .inr ⟨last, rfl, by rw [next, hlast]; rfl⟩

def map {β : Type} (f : α → β) (block : Block α) : Block β :=
  ⟨block.carried.map f, block.fresh.map f⟩

theorem items_map {β : Type} (f : α → β) (block : Block α) :
    (block.map f).items = block.items.map f := by simp [map, items]

end Block

/-- The blocks that come of `items` where `block` is open. `cut` says of the open block and the next
item whether the block is closed, and then whether it carries. -/
def cutFrom (cut : List α → α → Option Bool) (block : Block α) : List α → List (Block α)
  | [] => [block]
  | item :: items =>
    match cut block.items item with
    | none => cutFrom cut (block.add item) items
    | some carries => block :: cutFrom cut (block.next carries item) items

/-- `items`, cut into blocks. -/
def blocks (cut : List α → α → Option Bool) : List α → List (Block α)
  | [] => []
  | item :: items => cutFrom cut ⟨[], [item]⟩ items

structure Follows (first second : Block α) : Prop where
  carried : second.carried = [] ∨ second.carried = first.items.getLast?.toList
  fresh : second.fresh ≠ []

theorem Follows.carried_subset_items {first second : Block α} (h : Follows first second) :
    second.carried ⊆ first.items := by
  intro item hitem
  rcases h.carried with hnone | hlast
  · simp [hnone] at hitem
  · exact List.mem_of_getLast? (by simpa [hlast] using hitem)

theorem Follows.map {β : Type} {first second : Block α} (h : Follows first second) (f : α → β) :
    Follows (first.map f) (second.map f) where
  carried := by
    rcases h.carried with hnone | hlast
    · exact .inl (by simp [Block.map, hnone])
    · refine .inr ?_
      rw [Block.items_map, List.getLast?_map, Block.map, hlast]
      cases first.items.getLast? <;> rfl
  fresh := by simpa [Block.map] using h.fresh

section Cut

variable {cut : List α → α → Option Bool}

theorem fresh_cutFrom {block : Block α} {items : List α} :
    (cutFrom cut block items).flatMap Block.fresh = block.fresh ++ items := by
  fun_induction cutFrom cut block items with
  | case1 block => simp
  | case2 block item items _ ih => simpa [Block.add] using ih
  | case3 block item items carries _ ih =>
    rw [List.flatMap_cons, ih]
    rfl

theorem fresh_blocks (items : List α) : (blocks cut items).flatMap Block.fresh = items := by
  cases items with
  | nil => rfl
  | cons item items => exact fresh_cutFrom

theorem follows_next (block : Block α) (carries : Bool) (item : α) :
    Follows block (block.next carries item) where
  carried := by cases carries <;> simp [Block.next]
  fresh := by simp [Block.next]

theorem chain_cutFrom (block : Block α) (items : List α) :
    (cutFrom cut block items).IsChain Follows ∧ ∃ more rest,
      cutFrom cut block items = ⟨block.carried, block.fresh ++ more⟩ :: rest := by
  fun_induction cutFrom cut block items with
  | case1 block => exact ⟨List.IsChain.singleton _, [], [], by simp⟩
  | case2 block item items _ ih =>
    obtain ⟨hchain, more, rest, heq⟩ := ih
    exact ⟨hchain, item :: more, rest, by simpa [Block.add] using heq⟩
  | case3 block item items carries _ ih =>
    obtain ⟨hchain, more, rest, heq⟩ := ih
    refine ⟨?_, [], cutFrom cut (block.next carries item) items, by simp⟩
    rw [heq] at hchain ⊢
    refine List.isChain_cons_cons.mpr ⟨⟨?_, ?_⟩, hchain⟩
    · exact (follows_next block carries item).carried
    · simp [Block.next]

theorem chain_blocks (items : List α) : (blocks cut items).IsChain Follows := by
  cases items with
  | nil => exact List.IsChain.nil
  | cons item items => exact (chain_cutFrom _ _).1

theorem forall_cutFrom {P : Block α → Prop}
    (hadd : ∀ block item, P block → cut block.items item = none → P (block.add item))
    (hnext : ∀ block item carries, P block → cut block.items item = some carries →
      P (block.next carries item))
    {block : Block α} (h : P block) {items : List α} : ∀ b ∈ cutFrom cut block items, P b := by
  fun_induction cutFrom cut block items with
  | case1 block => simpa using h
  | case2 block item items hcut ih => exact ih (hadd _ _ h hcut)
  | case3 block item items carries hcut ih =>
    simpa using ⟨h, ih (hnext _ _ _ h hcut)⟩

theorem forall_blocks {P : Block α → Prop} (hfirst : ∀ item, P ⟨[], [item]⟩)
    (hadd : ∀ block item, P block → cut block.items item = none → P (block.add item))
    (hnext : ∀ block item carries, P block → cut block.items item = some carries →
      P (block.next carries item)) (items : List α) : ∀ b ∈ blocks cut items, P b := by
  cases items with
  | nil => simp [blocks]
  | cons item items => exact forall_cutFrom hadd hnext (hfirst item)

theorem fresh_ne_nil (items : List α) : ∀ block ∈ blocks cut items, block.fresh ≠ [] :=
  forall_blocks (by simp) (by simp [Block.add]) (by simp [Block.next]) items

theorem infix_cutFrom {block : Block α} {items whole : List α}
    (h : block.items ++ items <:+ whole) : ∀ b ∈ cutFrom cut block items, b.items <:+: whole := by
  fun_induction cutFrom cut block items with
  | case1 block => simpa using h.isInfix
  | case2 block item items _ ih => exact ih (by simpa using h)
  | case3 block item items carries _ ih =>
    have hblock : block.items <:+: whole := (List.infix_append' [] _ _).trans h.isInfix
    refine List.forall_mem_cons.mpr ⟨hblock, ih (List.IsSuffix.trans ?_ h)⟩
    rcases block.next_eq carries item with heq | ⟨last, hlast, heq⟩
    · rw [heq]
      exact ⟨block.items, by simp [Block.items]⟩
    · obtain ⟨front, hfront⟩ := List.getLast?_eq_some_iff.mp hlast
      rw [heq, hfront]
      exact ⟨front, by simp [Block.items]⟩

theorem infix_blocks (items : List α) : ∀ block ∈ blocks cut items, block.items <:+: items := by
  cases items with
  | nil => simp [blocks]
  | cons item items => exact @infix_cutFrom _ _ ⟨[], [item]⟩ _ _ (List.suffix_refl _)

theorem carried_head (items : List α) : ∀ block ∈ (blocks cut items).head?, block.carried = [] := by
  cases items with
  | nil => simp [blocks]
  | cons item items =>
    obtain ⟨-, more, rest, heq⟩ := @chain_cutFrom _ cut ⟨[], [item]⟩ items
    simp [blocks, heq]

end Cut

/-- An item is in one block, or it is the last of one block and carried over into the next. -/
def Placed (blocks : List (Block α)) (item : α) : Prop :=
  (∃ before block after, blocks = before ++ block :: after ∧ item ∈ block.items ∧
    ∀ other ∈ before ++ after, item ∉ other.items) ∨
  ∃ before first second after, blocks = before ++ first :: second :: after ∧
    first.items.getLast? = some item ∧ second.carried = [item] ∧
    ∀ other ∈ before ++ after, item ∉ other.items

theorem mem_fresh_of_last {block : Block α} {item : α} (hfresh : block.fresh ≠ [])
    (hlast : item ∈ block.items.getLast?.toList) : item ∈ block.fresh := by
  rw [Block.items, List.getLast?_append_of_ne_nil _ hfresh] at hlast
  exact List.mem_of_getLast? (by simpa using hlast)

theorem Follows.carried_subset {first second : Block α} (h : Follows first second)
    (hfresh : first.fresh ≠ []) : second.carried ⊆ first.fresh := by
  intro item hitem
  rcases h.carried with hnone | hlast
  · simp [hnone] at hitem
  · exact mem_fresh_of_last hfresh (hlast ▸ hitem)

theorem mem_fresh_of_later {block : Block α} {rest : List (Block α)}
    (hchain : (block :: rest).IsChain Follows) (hfresh : block.fresh ≠ []) {other : Block α}
    (hother : other ∈ rest) {item : α} (hitem : item ∈ other.items) :
    item ∈ (block :: rest).flatMap Block.fresh := by
  induction rest generalizing block with
  | nil => simp at hother
  | cons second rest ih =>
    obtain ⟨hfollows, hrest⟩ := List.isChain_cons_cons.mp hchain
    rw [List.flatMap_cons, List.mem_append]
    rcases List.mem_cons.mp hother with rfl | hother
    · rcases List.mem_append.mp hitem with hcarried | hadded
      · exact .inl (hfollows.carried_subset hfresh hcarried)
      · exact .inr (by simp [hadded])
    · exact .inr (ih hrest hfollows.fresh hother)

def Starts (blocks : List (Block α)) : Prop :=
  ∀ block ∈ blocks.head?, block.fresh ≠ [] ∧
    ∀ item ∈ block.carried, item ∉ blocks.flatMap Block.fresh

section Distinct

variable {block : Block α} {rest : List (Block α)}

theorem Starts.tail (h : Starts (block :: rest)) (hchain : (block :: rest).IsChain Follows)
    (hnodup : ((block :: rest).flatMap Block.fresh).Nodup) : Starts rest := by
  intro second hsecond
  have hfollows := (List.isChain_cons.mp hchain).1 second hsecond
  obtain ⟨-, -, hapart⟩ := List.nodup_append.mp (List.flatMap_cons ▸ hnodup)
  exact ⟨hfollows.fresh, fun other hother hadded =>
    hapart _ (hfollows.carried_subset (h block rfl).1 hother) _ hadded rfl⟩

theorem Starts.notMem {item : α} (h : Starts (block :: rest))
    (hnodup : ((block :: rest).flatMap Block.fresh).Nodup)
    (hitem : item ∈ rest.flatMap Block.fresh) : item ∉ block.items := by
  obtain ⟨-, -, hapart⟩ := List.nodup_append.mp (List.flatMap_cons ▸ hnodup)
  intro hhere
  rcases List.mem_append.mp hhere with hcarried | hfresh
  · exact (h block rfl).2 item hcarried (by simp [List.mem_flatMap.mp hitem])
  · exact hapart _ hfresh _ hitem rfl

theorem apart {blocks : List (Block α)} (hchain : blocks.IsChain Follows) (hstarts : Starts blocks)
    (hnodup : (blocks.flatMap Block.fresh).Nodup) :
    blocks.IsChain fun first second => ¬ second.items ⊆ first.items := by
  induction blocks with
  | nil => exact .nil
  | cons block rest ih =>
    have hrest := ih (List.isChain_cons.mp hchain).2 (hstarts.tail hchain hnodup)
      (List.nodup_append.mp (List.flatMap_cons ▸ hnodup)).2.1
    refine List.isChain_cons.mpr ⟨fun second hsecond hsubset => ?_, hrest⟩
    obtain ⟨item, hitem⟩ := List.exists_mem_of_ne_nil _
      ((List.isChain_cons.mp hchain).1 second hsecond).fresh
    exact hstarts.notMem hnodup
      (List.mem_flatMap.mpr ⟨second, List.mem_of_mem_head? hsecond, hitem⟩)
      (hsubset (List.mem_append_right _ hitem))

theorem placed {blocks : List (Block α)} (hchain : blocks.IsChain Follows) (hstarts : Starts blocks)
    (hnodup : (blocks.flatMap Block.fresh).Nodup) {item : α}
    (hitem : item ∈ blocks.flatMap Block.fresh) : Placed blocks item := by
  induction blocks with
  | nil => simp at hitem
  | cons block rest ih =>
    obtain ⟨-, hrest, hapart⟩ := List.nodup_append.mp (List.flatMap_cons ▸ hnodup)
    rw [List.flatMap_cons, List.mem_append] at hitem
    rcases hitem with hadded | hitem
    · have hlater : item ∉ rest.flatMap Block.fresh := fun h => hapart _ hadded _ h rfl
      have hhere : item ∈ block.items := List.mem_append_right _ hadded
      cases rest with
      | nil => exact .inl ⟨[], block, [], rfl, hhere, by simp⟩
      | cons second after =>
        obtain ⟨hfollows, hafter⟩ := List.isChain_cons_cons.mp hchain
        have hothers : ∀ other ∈ after, item ∉ other.items := fun other hother h =>
          hlater (mem_fresh_of_later hafter hfollows.fresh hother h)
        have hsecond : item ∉ second.fresh := fun h => hlater (by simp [h])
        by_cases hlast : item ∈ second.carried
        · have hsame : second.carried = block.items.getLast?.toList := by
            rcases hfollows.carried with hnone | hsame
            · simp [hnone] at hlast
            · exact hsame
          have hgetLast : block.items.getLast? = some item := by
            simpa [hsame] using hlast
          exact .inr ⟨[], block, second, after, rfl, hgetLast, by simp [hsame, hgetLast],
            by simpa using hothers⟩
        · refine .inl ⟨[], block, second :: after, rfl, hhere, ?_⟩
          intro other hother
          rcases List.mem_cons.mp hother with rfl | hother
          · simp [Block.items, hlast, hsecond]
          · exact hothers other hother
    · have hnothere := hstarts.notMem hnodup hitem
      rcases ih (List.isChain_cons.mp hchain).2 (hstarts.tail hchain hnodup) hrest hitem with
        ⟨before, found, after, rfl, hmem, hothers⟩ |
        ⟨before, first, second, after, rfl, hlast, hsecond, hothers⟩
      · exact .inl ⟨block :: before, found, after, rfl, hmem, by
          simpa [hnothere] using hothers⟩
      · exact .inr ⟨block :: before, first, second, after, rfl, hlast, hsecond, by
          simpa [hnothere] using hothers⟩

end Distinct

theorem fresh_map {β : Type} {f : α → β} {blocks : List (Block α)} :
    (blocks.map (Block.map f)).flatMap Block.fresh = (blocks.flatMap Block.fresh).map f := by
  rw [List.flatMap_map, List.map_flatMap]
  rfl

section Shown

variable {β : Type} {cut : List α → α → Option Bool} (f : α → β) (items : List α)

theorem chain_map_blocks : ((blocks cut items).map (Block.map f)).IsChain Follows :=
  (List.isChain_map _).mpr ((chain_blocks items).imp fun _ _ h => h.map f)

theorem starts_map_blocks : Starts ((blocks cut items).map (Block.map f)) := by
  intro block hblock
  obtain ⟨block, hhead, rfl⟩ := Option.map_eq_some_iff.mp (List.head?_map ▸ hblock)
  exact ⟨by simpa [Block.map] using fresh_ne_nil items block (List.mem_of_mem_head? hhead),
    by simp [Block.map, carried_head items block hhead]⟩

theorem fresh_map_blocks :
    ((blocks cut items).map (Block.map f)).flatMap Block.fresh = items.map f := by
  rw [fresh_map, fresh_blocks]

end Shown

end Overlap
