import Mathlib.Logic.Basic
import AiBuddy.Conversation.SttRequests

/-!
# The space of a chat write

`ChatWriteStore.resolve_space_id` in `services/chat/writes.py`. The spaces that it returns beside
its choice are those that it was given.
-/

namespace AiBuddy.Chat

/-- A space of `list_user_spaces`, `services/conversation/repository.py:1144`; it never has an empty
label. -/
structure UserSpace where
  spaceId : String
  label : String
  label_ne : label ≠ "" := by decide
  deriving DecidableEq

/-- `str(to_mongo_id(value))`, `repository.py:1340`. -/
def mongoText (value : String) : String :=
  if Conversation.ObjectId.isValid value then Text.lower value else value

def UserSpace.labelOr (space : UserSpace) (sid : String) : String :=
  if space.label = "" then sid else space.label

-- `str.strip` and `str.lower`
variable (strip lower : String → String)

/-- `hint`, and what it is compared with. -/
def clean (text : String) : String := lower (strip text)

def hintMatches (hint : String) (space : UserSpace) : Bool :=
  let label := clean strip lower space.label
  hint = label || Text.contains hint label || hint = lower space.spaceId

/-- The space that the hint finds, `:336`. -/
def spaceByHint (spaces : List UserSpace) (hint : String) : Option UserSpace :=
  if hint = "" then none else spaces.find? (hintMatches strip lower hint)

/-- The choice of the loop over the preferred ids, `:343`. -/
def spaceByPreferred (spaces : List UserSpace) (preferred : List String) :
    Option (String × String) :=
  preferred.findSome? fun sid =>
    (spaces.find? fun space => space.spaceId = sid || mongoText space.spaceId = mongoText sid).map
      fun space => (sid, space.labelOr sid)

/-- `:320`: the id and the label of the space. -/
def resolveSpaceId (spaces : List UserSpace) (preferredSpaceIds : Option (List String))
    (spaceNameHint : Option String) : Option (String × String) :=
  if spaces = [] then none
  else
    let preferred := (preferredSpaceIds.getD []).filter (· ≠ "")
    let hint := clean strip lower (spaceNameHint.getD "")
    match spaceByHint strip lower spaces hint with
    | some space => some (space.spaceId, space.labelOr space.spaceId)
    | none =>
      match spaceByPreferred spaces preferred with
      | some chosen => some chosen
      | none =>
        match preferred, spaces with
        | [only], _ =>
          some (only, ((spaces.find? (·.spaceId = only)).map (·.labelOr only)).getD only)
        | _, [only] => some (only.spaceId, only.labelOr only.spaceId)
        | _, _ => none

end AiBuddy.Chat

/-!
## Whose space it is

The choice is the space that was meant unless another match stands in front of the exact one, or a
single preferred id is taken over without being one of the user's.
-/

namespace AiBuddy.Chat

variable {strip lower : String → String} {spaces : List UserSpace}

def UserSpace.IsNamed (space : UserSpace) (id : String) : Prop :=
  mongoText space.spaceId = mongoText id

def OnlyLabelled (strip lower : String → String) (spaces : List UserSpace) (hint : String)
    (space : UserSpace) : Prop :=
  hint ≠ "" ∧ clean strip lower space.label = hint ∧
    ∀ other ∈ spaces, clean strip lower other.label = hint → other = space

structure Meant (strip lower : String → String) (spaces : List UserSpace) (hint : String)
    (choice : Option (String × String)) : Prop where
  owned : ∀ id label, choice = some (id, label) →
    ∃ space ∈ spaces, space.IsNamed id ∧ label = space.label
  exact : ∀ space ∈ spaces, OnlyLabelled strip lower spaces hint space →
    ∃ id label, choice = some (id, label) ∧ space.IsNamed id

def Overtaken (strip lower : String → String) (spaces : List UserSpace) (hint : String) : Prop :=
  ∃ space ∈ spaces, OnlyLabelled strip lower spaces hint space ∧
    ∃ first, spaceByHint strip lower spaces hint = some first ∧ ¬ space.IsNamed first.spaceId

def Foreign (strip lower : String → String) (spaces : List UserSpace) (preferred : List String)
    (hint : String) : Prop :=
  spaces ≠ [] ∧ spaceByHint strip lower spaces hint = none ∧
    ∃ only, preferred = [only] ∧ ∀ space ∈ spaces, ¬ space.IsNamed only

theorem labelOr_eq (space : UserSpace) (id : String) : space.labelOr id = space.label :=
  if_neg space.label_ne

theorem spaceByHint_mem {hint : String} {space : UserSpace}
    (h : spaceByHint strip lower spaces hint = some space) : space ∈ spaces := by
  unfold spaceByHint at h
  split at h
  · cases h
  · exact List.mem_of_find?_eq_some h

theorem spaceByHint_of_label {hint : String} {space : UserSpace} (hspace : space ∈ spaces)
    (hhint : hint ≠ "") (hlabel : clean strip lower space.label = hint) :
    ∃ first, spaceByHint strip lower spaces hint = some first := by
  unfold spaceByHint
  rw [if_neg hhint]
  refine Option.isSome_iff_exists.mp (List.find?_isSome.mpr ⟨space, hspace, ?_⟩)
  simp [hintMatches, hlabel]

theorem preferred_match {space : UserSpace} {sid : String} :
    (space.spaceId = sid || mongoText space.spaceId = mongoText sid : Bool) = true ↔
      space.IsNamed sid := by
  rw [Bool.or_eq_true, decide_eq_true_eq, decide_eq_true_eq]
  exact ⟨fun h => h.elim (fun heq => congrArg mongoText heq) id, .inr⟩

theorem spaceByPreferred_owned {preferred : List String} {id label : String}
    (h : spaceByPreferred spaces preferred = some (id, label)) :
    ∃ space ∈ spaces, space.IsNamed id ∧ label = space.label := by
  obtain ⟨sid, -, hsid⟩ := List.exists_of_findSome?_eq_some h
  obtain ⟨space, hfind, hchoice⟩ := Option.map_eq_some_iff.mp hsid
  obtain ⟨rfl, rfl⟩ := Prod.mk.inj hchoice
  have hmatch := List.find?_some hfind
  exact ⟨space, List.mem_of_find?_eq_some hfind, preferred_match.mp hmatch, labelOr_eq space sid⟩

theorem spaceByPreferred_eq_none_iff {only : String} :
    spaceByPreferred spaces [only] = none ↔ ∀ space ∈ spaces, ¬ space.IsNamed only := by
  rw [spaceByPreferred, List.findSome?_singleton, Option.map_eq_none_iff, List.find?_eq_none]
  exact forall₂_congr fun space _ => not_congr preferred_match

/-- The choice is the space that was meant, exactly where no other match is in front of the exact
one and no foreign id is preferred. -/
theorem resolveSpaceId_meant_iff (strip lower : String → String) (spaces : List UserSpace)
    (preferredSpaceIds : Option (List String)) (spaceNameHint : Option String) :
    Meant strip lower spaces (clean strip lower (spaceNameHint.getD ""))
        (resolveSpaceId strip lower spaces preferredSpaceIds spaceNameHint) ↔
      ¬ Overtaken strip lower spaces (clean strip lower (spaceNameHint.getD "")) ∧
        ¬ Foreign strip lower spaces ((preferredSpaceIds.getD []).filter (· ≠ ""))
          (clean strip lower (spaceNameHint.getD "")) := by
  unfold resolveSpaceId
  dsimp only
  generalize (preferredSpaceIds.getD []).filter (· ≠ "") = preferred
  generalize clean strip lower (spaceNameHint.getD "") = hint
  by_cases hempty : spaces = []
  · subst hempty
    rw [if_pos rfl]
    exact ⟨fun _ => ⟨fun ⟨_, hspace, _⟩ => List.not_mem_nil hspace, fun h => h.1 rfl⟩,
      fun _ => ⟨nofun, nofun⟩⟩
  rw [if_neg hempty]
  cases hfound : spaceByHint strip lower spaces hint with
  | some first =>
    dsimp only
    constructor
    · intro h
      refine ⟨fun ⟨space, hspace, honly, other, hother, hnamed⟩ => ?_,
        fun ⟨_, hnone, _⟩ => nomatch hfound.symm.trans hnone⟩
      obtain ⟨id, label, hid, hid'⟩ := h.exact space hspace honly
      obtain rfl := Option.some.inj (hfound.symm.trans hother)
      obtain ⟨rfl, -⟩ := Prod.mk.inj (Option.some.inj hid)
      exact hnamed hid'
    · rintro ⟨hovertaken, -⟩
      refine ⟨fun id label hid => ?_, fun space hspace honly => ⟨_, _, rfl, ?_⟩⟩
      · obtain ⟨rfl, rfl⟩ := Prod.mk.inj (Option.some.inj hid)
        exact ⟨first, spaceByHint_mem hfound, rfl, labelOr_eq first _⟩
      · exact not_not.mp fun hnamed =>
          hovertaken ⟨space, hspace, honly, first, hfound, hnamed⟩
  | none =>
    dsimp only
    have hunlabelled : ∀ space ∈ spaces, ¬ OnlyLabelled strip lower spaces hint space := by
      rintro space hspace ⟨hne, hlabel, -⟩
      obtain ⟨first, hfirst⟩ := spaceByHint_of_label hspace hne hlabel
      exact nomatch hfound.symm.trans hfirst
    have hexact : ∀ {choice : Option (String × String)}, (∀ id label, choice = some (id, label) →
        ∃ space ∈ spaces, space.IsNamed id ∧ label = space.label) →
          Meant strip lower spaces hint choice := fun howned =>
      ⟨howned, fun space hspace honly => absurd honly (hunlabelled space hspace)⟩
    have hnotOvertaken : ¬ Overtaken strip lower spaces hint :=
      fun ⟨space, hspace, honly, _⟩ => hunlabelled space hspace honly
    cases hchosen : spaceByPreferred spaces preferred with
    | some chosen =>
      refine ⟨fun _ => ⟨hnotOvertaken, fun ⟨_, _, only, honly, hforeign⟩ => ?_⟩, fun _ =>
        hexact fun id label hid => spaceByPreferred_owned (hchosen.trans hid)⟩
      rw [honly, spaceByPreferred_eq_none_iff.mpr hforeign] at hchosen
      cases hchosen
    | none =>
      dsimp only
      split
      · next _ only =>
        have hforeign := spaceByPreferred_eq_none_iff.mp hchosen
        refine iff_of_false (fun h => ?_) fun h => h.2 ⟨hempty, hfound, only, rfl, hforeign⟩
        obtain ⟨space, hspace, hnamed, -⟩ := h.owned only _ rfl
        exact hforeign space hspace hnamed
      · next hseveral =>
        refine iff_of_true (hexact fun id label hid => ?_)
          ⟨hnotOvertaken, fun ⟨_, _, only, honly, _⟩ => hseveral only honly⟩
        obtain ⟨rfl, rfl⟩ := Prod.mk.inj (Option.some.inj hid)
        exact ⟨_, List.mem_singleton_self _, rfl, labelOr_eq _ _⟩
      · next hseveral _ =>
        exact iff_of_true (hexact nofun)
          ⟨hnotOvertaken, fun ⟨_, _, only, honly, _⟩ => hseveral only honly⟩

def homeworkAndWork : List UserSpace := [⟨"s1", "Homework", by decide⟩, ⟨"s2", "Work", by decide⟩]

theorem work_goes_to_homework :
    ¬ Meant Text.strip Text.lower homeworkAndWork "work"
      (resolveSpaceId Text.strip Text.lower homeworkAndWork none (some " Work ")) := by
  intro h
  have hmeant := (h.exact ⟨"s2", "Work", by decide⟩ (by decide)
    ⟨by decide, by decide, by decide⟩)
  obtain ⟨id, label, hchoice, hnamed⟩ := hmeant
  have hfirst : resolveSpaceId Text.strip Text.lower homeworkAndWork none (some " Work ") =
      some ("s1", "Homework") := by decide
  rw [hfirst] at hchoice
  obtain ⟨rfl, -⟩ := Prod.mk.inj (Option.some.inj hchoice)
  have hother : mongoText "s2" ≠ mongoText "s1" := by decide
  exact hother hnamed

end AiBuddy.Chat
