import AiBuddy.Conversation.Proofs.ArtifactResolver

/-!
# Related but distinct artifacts

What a `RELATED_BUT_DISTINCT` decision does to its target. The branch for incoming artifacts that
are cancelled stands before the branch for related artifacts, so the target is left as it is for
the others only.
-/

namespace AiBuddy.Conversation

open Keyed

structure Links (id : String) (target changed : MeetingArtifactDocument) : Prop where
  same : { changed with relatedArtifactIds := target.relatedArtifactIds } = target
  gains : ∀ other, other ≠ "" →
    (other ∈ changed.relatedArtifactIds ↔ other ∈ target.relatedArtifactIds ∨ other = id)

structure LinkedBack (item target added : MeetingArtifactDocument) : Prop where
  id : added.id = item.id
  title : added.title = item.title
  content : added.content = item.content
  back : target.id ∈ added.relatedArtifactIds

structure RelatesOnly (working : List MeetingArtifactDocument)
    (item target : MeetingArtifactDocument) (result : List MeetingArtifactDocument) : Prop where
  kept : ∃ changed, find? MeetingArtifactDocument.id target.id result = some changed ∧
    Links item.id target changed
  added : ∃ added ∈ result, LinkedBack item target added
  others : ∀ other ∈ working, other.id ≠ target.id → other ∈ result

theorem mem_of_mem_firstByKey {value : String} {values : List String} :
    ∀ {seen : List String}, value ∈ firstByKey id seen values → value ∈ values := by
  induction values with
  | nil =>
    intro seen h
    cases h
  | cons first rest ih =>
    intro seen h
    unfold firstByKey at h
    split at h
    · exact List.mem_cons_of_mem _ (ih h)
    · rcases List.mem_cons.mp h with rfl | hrest
      · exact List.mem_cons_self
      · exact List.mem_cons_of_mem _ (ih hrest)

theorem mem_unique_iff {value : String} {values : List String} (hne : value ≠ "") :
    value ∈ unique values ↔ value ∈ values := by
  refine ⟨fun h => ?_, fun h => mem_unique h hne⟩
  exact List.mem_of_mem_filter (mem_of_mem_firstByKey h)

theorem links_relatedTarget {target incoming : MeetingArtifactDocument} :
    Links incoming.id target (relatedTarget target incoming) where
  same := rfl
  gains other hne := by
    rw [relatedTarget, mem_unique_iff hne, List.mem_append, List.mem_singleton]

theorem applyFrom_concat {unicode : Text.Unicode} {decisions : List ArtifactReconcileDecision}
    {item : MeetingArtifactDocument} {before : List MeetingArtifactDocument} :
    ∀ (index : Nat) (working : List MeetingArtifactDocument),
      applyFrom unicode decisions index (before ++ [item]) working =
        applyDecision unicode decisions (index + before.length) item
          (applyFrom unicode decisions index before working) := by
  induction before with
  | nil =>
    intro index working
    rfl
  | cons first rest ih =>
    intro index working
    rw [List.cons_append, applyFrom, ih, applyFrom, List.length_cons]
    congr 1
    omega

section Turn

variable {unicode : Text.Unicode} {decisions : List ArtifactReconcileDecision} {index : Nat}
  {item target : MeetingArtifactDocument} {working : List MeetingArtifactDocument}

theorem notMem_of_cancels (hfound : findById working (targetAt decisions index) = some target)
    (haction : actionAt decisions index = .relatedButDistinct) (hfresh : item.id ∉ idsOf working)
    (hcancels : cancels item = true) :
    item.id ∉ idsOf (applyDecision unicode decisions index item working) := by
  have htarget : target ∈ working := (findById_eq_some hfound).1
  have hids : ∀ changed : MeetingArtifactDocument, changed.id = target.id →
      idsOf (replaceOrAppend MeetingArtifactDocument.id changed working) = idsOf working :=
    fun changed hid => idsOf_replace htarget hid
  have hitem : cancels (withEvidence unicode (decisionAt decisions index) item) = true := hcancels
  rw [applyDecision_of_found hfound, haction]
  rw [applyResolution_of_cancels rfl (by simp [resolutionFromAction]) hitem]
  exact hids (cancelled unicode target _ _) rfl ▸ hfresh

theorem relatesOnly_of_not_cancels
    (hfound : findById working (targetAt decisions index) = some target)
    (haction : actionAt decisions index = .relatedButDistinct) (hfresh : item.id ∉ idsOf working)
    (hcancels : cancels item = false) :
    RelatesOnly working item target (applyDecision unicode decisions index item working) := by
  obtain ⟨hmem, hid⟩ := findById_eq_some hfound
  have hne : target.id ≠ "" := by
    rintro hblank
    rw [hid, hblank] at hfound
    cases hfound
  have hitem : cancels (withEvidence unicode (decisionAt decisions index) item) = false := hcancels
  rw [applyDecision_of_found hfound, haction]
  rw [applyResolution_of_not_cancels rfl (by simp [resolutionFromAction]) hitem]
  dsimp only [resolutionFromAction]
  generalize hincoming : MeetingArtifactDocument.mk .. = incoming
  have hsame : incoming.id = item.id ∧ incoming.title = item.title ∧
      incoming.content = item.content := by
    rw [← hincoming]
    exact ⟨rfl, rfl, rfl⟩
  have hother : item.id ≠ target.id := fun h => hfresh (h ▸ List.mem_map_of_mem hmem)
  have hchanged : (relatedTarget target incoming).id = target.id := rfl
  have hadded : (relatedIncoming target incoming).id = item.id := hsame.1
  refine ⟨⟨relatedTarget target incoming, ?_, hsame.1 ▸ links_relatedTarget⟩,
    ⟨relatedIncoming target incoming, mem_replaceOrAppend_self _ _,
      ⟨hadded, hsame.2.1, hsame.2.2, ?_⟩⟩, fun other hmemOther hotherId => ?_⟩
  · rw [find?_replaceOrAppend, if_neg (by rw [hadded]; exact hother), find?_replaceOrAppend,
      if_pos hchanged]
  · exact mem_unique (List.mem_append_right _ (List.mem_singleton_self _)) hne
  · apply mem_replaceOrAppend_of_ne
    · apply mem_replaceOrAppend_of_ne hmemOther
      rw [hchanged]
      exact hotherId
    · intro h
      exact hfresh (hadded ▸ h ▸ List.mem_map_of_mem hmemOther)

end Turn

/-- The turn of an incoming artifact that is related to an artifact of the list, after the turns
of any others. It leaves the target as it was and adds the incoming artifact exactly where the
incoming artifact is neither cancelled nor rejected and does not carry the cancelling operation. -/
theorem relates_only_iff (unicode : Text.Unicode)
    (existing before : List MeetingArtifactDocument) (item : MeetingArtifactDocument)
    (decisions : List ArtifactReconcileDecision) (decision : ArtifactReconcileDecision)
    (target : MeetingArtifactDocument)
    (hdecision : decisionAt decisions before.length = some decision)
    (haction : decision.action = .relatedButDistinct)
    (htarget : findById (applyLlmDecisions unicode existing before decisions)
      decision.targetArtifactId = some target)
    (hfresh : item.id ∉ idsOf (applyLlmDecisions unicode existing before decisions)) :
    RelatesOnly (applyLlmDecisions unicode existing before decisions) item target
        (applyLlmDecisions unicode existing (before ++ [item]) decisions) ↔
      item.status ≠ .cancelled ∧ item.status ≠ .rejected ∧ item.operation ≠ some .cancel := by
  have hturn : applyLlmDecisions unicode existing (before ++ [item]) decisions =
      applyDecision unicode decisions before.length item
        (applyLlmDecisions unicode existing before decisions) := by
    rw [applyLlmDecisions, applyFrom_concat, Nat.zero_add, applyLlmDecisions]
  have hfound : findById (applyLlmDecisions unicode existing before decisions)
      (targetAt decisions before.length) = some target := by
    rw [targetAt, hdecision]
    exact htarget
  have hrelated : actionAt decisions before.length = .relatedButDistinct := by
    rw [actionAt, hdecision]
    exact haction
  have hcancels : cancels item = false ↔
      item.status ≠ .cancelled ∧ item.status ≠ .rejected ∧ item.operation ≠ some .cancel := by
    simp [cancels, and_assoc]
  rw [hturn, ← hcancels]
  constructor
  · rintro ⟨-, ⟨added, hadded, hback⟩, -⟩
    by_contra hcancel
    have hmem : item.id ∈ idsOf (applyDecision unicode decisions before.length item
        (applyLlmDecisions unicode existing before decisions)) :=
      hback.id ▸ List.mem_map_of_mem hadded
    exact notMem_of_cancels hfound hrelated hfresh (by simpa using hcancel) hmem
  · exact relatesOnly_of_not_cancels hfound hrelated hfresh

/-- The decision that the first incoming artifact is related to artifact `a1`. -/
def sampleRelation : ArtifactReconcileDecision :=
  { incomingIndex := 0, action := .relatedButDistinct, targetArtifactId := some "a1" }

theorem relates_only_sample :
    RelatesOnly [sampleArtifact "a1" .create] (sampleArtifact "b1" .create)
      (sampleArtifact "a1" .create)
      (applyLlmDecisions sampleUnicode [sampleArtifact "a1" .create]
        [sampleArtifact "b1" .create] [sampleRelation]) :=
  (relates_only_iff sampleUnicode [sampleArtifact "a1" .create] [] (sampleArtifact "b1" .create)
    [sampleRelation] sampleRelation (sampleArtifact "a1" .create) rfl rfl rfl (by decide)).mpr
    (by decide)

/-- A related artifact that says it is cancelled cancels its target and is not added. -/
theorem related_cancellation :
    ¬ RelatesOnly [sampleArtifact "a1" .create] (sampleArtifact "b1" .cancel)
      (sampleArtifact "a1" .create)
      (applyLlmDecisions sampleUnicode [sampleArtifact "a1" .create]
        [sampleArtifact "b1" .cancel] [sampleRelation]) := by
  rintro ⟨-, ⟨added, hadded, hback⟩, -⟩
  have hids : idsOf (applyLlmDecisions sampleUnicode [sampleArtifact "a1" .create]
      [sampleArtifact "b1" .cancel] [sampleRelation]) = ["a1"] := by decide
  have hmem : added.id ∈ ["a1"] := hids ▸ List.mem_map_of_mem hadded
  rw [hback.id] at hmem
  exact absurd hmem (by decide)

end AiBuddy.Conversation
