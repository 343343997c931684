import AiBuddy.MeetingPipeline.Partitions
import Mathlib.Data.List.Perm.Basic

/-!
# What partitioning keeps

Every candidate is in exactly one partition, a partition of several candidates is within both
limits, and a topic group that is within them alone is never spread.
-/

namespace AiBuddy.MeetingPipeline

open EventPipeline

variable (host : Host)

def groupMembers (groups : List TopicGroup) : List MeetingCandidate :=
  groups.flatMap (·.members)

theorem groupMembers_append {groups more : List TopicGroup} :
    groupMembers (groups ++ more) = groupMembers groups ++ groupMembers more :=
  List.flatMap_append

variable {group : TopicGroup}

theorem groupMembers_cons {groups : List TopicGroup} :
    groupMembers (group :: groups) = group.members ++ groupMembers groups := rfl

variable {groups : List TopicGroup}

theorem groupMembers_modify {slot : Nat} (hslot : slot < groups.length)
    {candidate : MeetingCandidate} :
    (groupMembers (groups.modify slot (·.add candidate))).Perm
      (groupMembers groups ++ [candidate]) := by
  induction groups generalizing slot with
  | nil => simp at hslot
  | cons group groups ih =>
    cases slot with
    | zero =>
      rw [List.modify_zero_cons, groupMembers_cons, groupMembers_cons, TopicGroup.add,
        List.append_assoc, List.append_assoc]
      exact List.Perm.append_left _ List.perm_append_comm
    | succ slot =>
      rw [List.modify_succ_cons, groupMembers_cons, groupMembers_cons, List.append_assoc]
      exact List.Perm.append_left _ (ih (by simpa using hslot))

theorem slotOf_lt {candidate : MeetingCandidate} {slot : Nat}
    (hslot : slotOf host groups candidate = some slot) : slot < groups.length := by
  unfold slotOf at hslot
  split at hslot
  case isTrue => exact (List.findIdx?_eq_some_iff_findIdx_eq.mp hslot).1
  case isFalse =>
    cases hlast : groups.getLast? with
    | none => simp [hlast] at hslot
    | some last =>
      have hpos : 0 < groups.length := by
        cases groups with
        | nil => simp at hlast
        | cons group groups => simp
      rw [hlast] at hslot
      dsimp only at hslot
      split at hslot
      · have := Option.some.inj hslot
        omega
      · cases hslot

theorem groupMembers_groupCandidate (groups : List TopicGroup) (candidate : MeetingCandidate) :
    (groupMembers (groupCandidate host groups candidate)).Perm
      (groupMembers groups ++ [candidate]) := by
  unfold groupCandidate
  cases hslot : slotOf host groups candidate with
  | some slot => exact groupMembers_modify (slotOf_lt host hslot)
  | none => exact List.Perm.of_eq groupMembers_append

theorem groupMembers_foldl (candidates : List MeetingCandidate) (groups : List TopicGroup) :
    (groupMembers (candidates.foldl (groupCandidate host) groups)).Perm
      (groupMembers groups ++ candidates) := by
  induction candidates generalizing groups with
  | nil => simp
  | cons candidate candidates ih =>
    rw [List.foldl_cons, ← List.singleton_append, ← List.append_assoc]
    exact (ih _).trans ((groupMembers_groupCandidate host groups candidate).append_right _)

theorem topicGroups_perm {candidates : List MeetingCandidate} :
    (groupMembers (topicGroups host candidates)).Perm candidates := by
  simpa [topicGroups, groupMembers] using groupMembers_foldl host candidates []

theorem groupCandidate_members (candidate : MeetingCandidate)
    (hgroups : ∀ group ∈ groups, group.members ≠ []) :
    ∀ group ∈ groupCandidate host groups candidate, group.members ≠ [] := by
  intro group hgroup
  unfold groupCandidate at hgroup
  split at hgroup
  · obtain ⟨i, hi, hget⟩ := List.getElem_of_mem hgroup
    rw [List.getElem_modify] at hget
    split at hget
    · simp [← hget, TopicGroup.add]
    · exact hget ▸ hgroups _ (List.getElem_mem _)
  · rcases List.mem_append.mp hgroup with hold | hnew
    · exact hgroups group hold
    · simp [List.mem_singleton.mp hnew]

theorem topicGroups_members {candidates : List MeetingCandidate} :
    ∀ group ∈ topicGroups host candidates, group.members ≠ [] := by
  suffices h : ∀ groups : List TopicGroup, (∀ group ∈ groups, group.members ≠ []) →
      ∀ group ∈ candidates.foldl (groupCandidate host) groups, group.members ≠ [] from
    h [] (by simp)
  induction candidates with
  | nil => exact fun groups hgroups => hgroups
  | cons candidate candidates ih =>
    intro groups hgroups
    rw [List.foldl_cons]
    exact ih _ (groupCandidate_members host candidate hgroups)

variable (isOver : List MeetingCandidate → Bool)

theorem flatten_piecesOf : (piecesOf isOver group).flatten = group.members := by
  unfold piecesOf
  split
  · exact Packing.flatten_split isOver group.members
  · simp

theorem flatten_flatMap_piecesOf {groups : List TopicGroup} :
    (groups.flatMap (piecesOf isOver)).flatten = groupMembers groups := by
  induction groups with
  | nil => rfl
  | cons group groups ih =>
    rw [List.flatMap_cons, List.flatten_append, flatten_piecesOf, ih, groupMembers_cons]

theorem fits_piecesOf : ∀ piece ∈ piecesOf isOver group, Packing.Fits isOver piece := by
  unfold piecesOf
  split
  case isTrue => exact Packing.fits_split isOver group.members
  case isFalse hwhole =>
    intro piece hpiece _
    simpa [List.mem_singleton.mp hpiece] using hwhole

theorem piecesOf_whole (hgroup : isOver group.members = false) :
    piecesOf isOver group = [group.members] := by
  simp [piecesOf, hgroup]

/-- Every group that is within the limits alone lies in one of the parts, where its members are
next to each other in the order of the group. -/
def GroupsKept (parts : List (List MeetingCandidate)) (groups : List TopicGroup) : Prop :=
  ∀ before group after, groups = before ++ group :: after → isOver group.members = false →
    Packing.Kept parts (groupMembers before) group.members

theorem packFrom_groupsKept (hgroups : ∀ group ∈ groups, group.members ≠ []) :
    GroupsKept isOver (Packing.packFrom isOver [] (groups.flatMap (piecesOf isOver))) groups := by
  rintro before group after rfl hgroup
  have hmembers : group.members ≠ [] := hgroups group (by simp)
  have hpieces : (before ++ group :: after).flatMap (piecesOf isOver) =
      before.flatMap (piecesOf isOver) ++ group.members :: after.flatMap (piecesOf isOver) := by
    rw [List.flatMap_append, List.flatMap_cons, piecesOf_whole isOver hgroup, List.singleton_append]
  have hkept := Packing.kept_packFrom isOver [] (before.flatMap (piecesOf isOver)) group.members
    (after.flatMap (piecesOf isOver)) hmembers
  rwa [flatten_flatMap_piecesOf, List.nil_append, ← hpieces] at hkept

/-- The partitions of `partition_candidates`: nothing is lost or doubled, a partition of two or
more candidates is within the budget and the limit, and no group that is within them alone is
spread. -/
theorem partitionCandidates_spec (estimate : PartitionPayload → Nat)
    (candidates : List MeetingCandidate) (sequenceText : Int → Option String) (budgetTokens : Int)
    (maxCandidates : Option Int) :
    let limits : PartitionLimits :=
      ⟨estimate, sequenceText, budgetTokens, candidateLimit maxCandidates candidates⟩
    let parts := partitionCandidates host estimate candidates sequenceText budgetTokens
      maxCandidates
    parts.flatten.Perm candidates ∧
    (∀ part ∈ parts, 2 ≤ part.length →
      (part.length : Int) ≤ limits.limit ∧ (limits.payloadTokens part : Int) ≤ budgetTokens) ∧
    (parts = [candidates] ∨ GroupsKept limits.isOver parts (topicGroups host candidates)) := by
  intro limits parts
  have hwithin : ∀ items, limits.isOver items = false →
      (items.length : Int) ≤ limits.limit ∧ (limits.payloadTokens items : Int) ≤ budgetTokens := by
    intro items hitems
    simpa [PartitionLimits.isOver, limits] using hitems
  by_cases hover : limits.isOver candidates
  case neg =>
    have hparts : parts = [candidates] := if_neg hover
    rw [hparts]
    refine ⟨by simp, fun part hpart _ => ?_, .inl rfl⟩
    rw [List.mem_singleton.mp hpart]
    exact hwithin candidates (Bool.eq_false_iff.mpr hover)
  case pos =>
    let groups := topicGroups host candidates
    let pieces := groups.flatMap (piecesOf limits.isOver)
    have hflatten : (Packing.packFrom limits.isOver [] pieces).flatten = groupMembers groups := by
      rw [Packing.flatten_packFrom, List.nil_append, flatten_flatMap_piecesOf]
    have hpieces : ∀ piece ∈ pieces, Packing.Fits limits.isOver piece := by
      intro piece hpiece
      obtain ⟨group, -, hmem⟩ := List.mem_flatMap.mp hpiece
      exact fits_piecesOf limits.isOver piece hmem
    have hparts : parts = if (Packing.packFrom limits.isOver [] pieces).isEmpty then [candidates]
        else Packing.packFrom limits.isOver [] pieces := if_pos hover
    split at hparts
    case isTrue hempty =>
      have hnil := List.isEmpty_iff.mp hempty
      have hmembers : groupMembers groups = [] := by rw [← hflatten, hnil, List.flatten_nil]
      have hcandidates : candidates = [] :=
        List.Perm.eq_nil ((topicGroups_perm host).symm.trans (.of_eq hmembers))
      rw [hparts]
      refine ⟨by simp, fun part hpart htwo => ?_, .inl rfl⟩
      rw [List.mem_singleton.mp hpart, hcandidates] at htwo
      exact absurd htwo (by simp)
    case isFalse =>
      rw [hparts]
      refine ⟨?_, fun part hpart htwo => ?_, .inr ?_⟩
      · exact hflatten ▸ topicGroups_perm host
      · exact hwithin part
          (Packing.fits_packFrom limits.isOver (Packing.fits_nil _) hpieces part hpart htwo)
      · exact packFrom_groupsKept limits.isOver (topicGroups_members host)

end AiBuddy.MeetingPipeline
