import AiBuddy.Conversation.ArtifactResolver

/-!
# What the reconciler keeps

The possible effects of one decision on the list, and from them that ids stay distinct,
that artifacts keep their places, and that no incoming artifact gets lost.
-/

namespace AiBuddy.Conversation

open Keyed

structure SameOrigin (artifact item : MeetingArtifactDocument) : Prop where
  id : artifact.id = item.id
  windows : artifact.sourceWindowIds = item.sourceWindowIds
  chunks : artifact.sourceChunkIds = item.sourceChunkIds
  supersededBy : artifact.supersededBy = item.supersededBy

inductive Applied (unicode : Text.Unicode) (working : List MeetingArtifactDocument)
    (item : MeetingArtifactDocument) (action : ReconcileAction)
    (result : List MeetingArtifactDocument) : Option MeetingArtifactDocument → Prop where
  | skipped (kind : outcome action item false = .skipped) (list : result = working) :
    Applied unicode working item action result none
  | created (matched : Option MeetingArtifactDocument) (new : MeetingArtifactDocument)
      (kind : outcome action item matched.isSome = .created) (same : SameOrigin new item)
      (status : new.status = item.status) (operation : new.operation = item.operation)
      (list : result = working ++ [new]) :
    Applied unicode working item action result matched
  | cancelled (target incoming : MeetingArtifactDocument)
      (kind : outcome action item true = .cancelled) (same : SameOrigin incoming item)
      (list : result = replaceOrAppend MeetingArtifactDocument.id
        (cancelled unicode target incoming (some action)) working) :
    Applied unicode working item action result (some target)
  | completed (target incoming : MeetingArtifactDocument)
      (kind : outcome action item true = .completed) (same : SameOrigin incoming item)
      (list : result = replaceOrAppend MeetingArtifactDocument.id
        (completed unicode target incoming (some action)) working) :
    Applied unicode working item action result (some target)
  | updated (target incoming : MeetingArtifactDocument)
      (kind : outcome action item true = .updated) (same : SameOrigin incoming item)
      (list : result = replaceOrAppend MeetingArtifactDocument.id
        (updated unicode target incoming (some action)) working) :
    Applied unicode working item action result (some target)
  | superseded (target incoming : MeetingArtifactDocument)
      (kind : outcome action item true = .superseded) (same : SameOrigin incoming item)
      (list : result = replaceOrAppend MeetingArtifactDocument.id
        (supersededTarget target incoming (some action)) working ++
          [successor target incoming]) :
    Applied unicode working item action result (some target)
  | related (target incoming : MeetingArtifactDocument)
      (kind : outcome action item true = .related) (same : SameOrigin incoming item)
      (list : result = replaceOrAppend MeetingArtifactDocument.id
        (relatedTarget target incoming) working ++ [relatedIncoming target incoming]) :
    Applied unicode working item action result (some target)

variable {target : MeetingArtifactDocument}

theorem findById_eq_some {working : List MeetingArtifactDocument} {artifactId : Option String}
    (h : findById working artifactId = some target) :
    target ∈ working ∧ artifactId = some target.id := by
  cases artifactId with
  | none => cases h
  | some wanted =>
    rw [findById] at h
    split at h
    · cases h
    · obtain ⟨hmem, hid⟩ := find?_eq_some h
      exact ⟨hmem, congrArg some hid.symm⟩

theorem applyResolution_of_cancels {unicode : Text.Unicode}
    {working : List MeetingArtifactDocument} {result : ResolutionResult}
    (hmatched : result.matched = some target) (hnew : result.resolution ≠ .new)
    (h : cancels result.incoming = true) :
    applyResolution unicode working result =
      (working, cancelled unicode target
        { result.incoming with resolution := result.resolution } result.reconcileAction) := by
  have hcancels : cancels { result.incoming with resolution := result.resolution } = true := h
  simp only [applyResolution, hmatched, if_neg hnew, if_pos hcancels]

theorem applyResolution_of_not_cancels {unicode : Text.Unicode}
    {working : List MeetingArtifactDocument} {result : ResolutionResult}
    (hmatched : result.matched = some target) (hnew : result.resolution ≠ .new)
    (h : cancels result.incoming = false) :
    applyResolution unicode working result =
      let incoming := { result.incoming with resolution := result.resolution }
      match result.resolution with
      | .related =>
        (replaceOrAppend MeetingArtifactDocument.id (relatedTarget target incoming) working,
          relatedIncoming target incoming)
      | .duplicate => (working, duplicated unicode target incoming result.reconcileAction)
      | .completion => (working, completed unicode target incoming result.reconcileAction)
      | .contradiction =>
        (replaceOrAppend MeetingArtifactDocument.id
          (supersededTarget target incoming result.reconcileAction) working,
          successor target incoming)
      | .new | .update => (working, updated unicode target incoming result.reconcileAction) := by
  have hcancels : ¬ cancels { result.incoming with resolution := result.resolution } = true := by
    rw [Bool.not_eq_true]
    exact h
  unfold applyResolution
  rw [hmatched]
  dsimp only
  refine (if_neg hnew).trans ((if_neg hcancels).trans ?_)
  cases result.resolution <;> rfl

variable {decisions : List ArtifactReconcileDecision} {index : Nat}

theorem applyDecision_of_found {unicode : Text.Unicode} {item : MeetingArtifactDocument}
    {working : List MeetingArtifactDocument}
    (hfound : findById working (targetAt decisions index) = some target) :
    applyDecision unicode decisions index item working =
      let result := applyResolution unicode working (resolutionFromAction
        (actionAt decisions index) (withEvidence unicode (decisionAt decisions index) item)
        (some target))
      replaceOrAppend MeetingArtifactDocument.id result.2 result.1 := by
  simp only [applyDecision, hfound, Option.isNone_some, Bool.and_false, Bool.false_eq_true,
    and_false, if_false]

theorem applied_of_not_found {unicode : Text.Unicode} {item : MeetingArtifactDocument}
    {working : List MeetingArtifactDocument} (hfresh : item.id ∉ idsOf working)
    (hfound : findById working (targetAt decisions index) = none) :
    Applied unicode working item (actionAt decisions index)
      (applyDecision unicode decisions index item working) none := by
  let new : MeetingArtifactDocument :=
    { withEvidence unicode (decisionAt decisions index) item with resolution := .new }
  have hcreated : replaceOrAppend MeetingArtifactDocument.id new working = working ++ [new] :=
    replaceOrAppend_of_notMem hfresh
  unfold applyDecision
  rw [hfound]
  cases actionAt decisions index with
  | createNew =>
    exact .created none new rfl ⟨rfl, rfl, rfl, rfl⟩ rfl rfl hcreated
  | relatedButDistinct =>
    exact .created none new rfl ⟨rfl, rfl, rfl, rfl⟩ rfl rfl hcreated
  | updateExisting => exact .skipped rfl rfl
  | completeExisting => exact .skipped rfl rfl
  | cancelExisting => exact .skipped rfl rfl
  | supersedeExisting => exact .skipped rfl rfl

theorem applied_of_found {unicode : Text.Unicode} {item : MeetingArtifactDocument}
    {working : List MeetingArtifactDocument} (hfresh : item.id ∉ idsOf working)
    (hfound : findById working (targetAt decisions index) = some target) :
    Applied unicode working item (actionAt decisions index)
      (applyDecision unicode decisions index item working) (some target) := by
  rw [applyDecision_of_found hfound]
  generalize hincoming : withEvidence unicode (decisionAt decisions index) item = incoming
  have hid : incoming.id = item.id := hincoming ▸ rfl
  have hwindows : incoming.sourceWindowIds = item.sourceWindowIds := hincoming ▸ rfl
  have hchunks : incoming.sourceChunkIds = item.sourceChunkIds := hincoming ▸ rfl
  have hsuperseded : incoming.supersededBy = item.supersededBy := hincoming ▸ rfl
  have hstatus : incoming.status = item.status := hincoming ▸ rfl
  have hoperation : incoming.operation = item.operation := hincoming ▸ rfl
  have hcancels : cancels incoming = cancels item := by
    rw [cancels, cancels, hstatus, hoperation]
  have htarget : target.id ∈ idsOf working :=
    List.mem_map_of_mem (findById_eq_some hfound).1
  have happend : ∀ changed : MeetingArtifactDocument, changed.id = target.id →
      ∀ new : MeetingArtifactDocument, new.id = item.id →
      replaceOrAppend MeetingArtifactDocument.id new
        (replaceOrAppend MeetingArtifactDocument.id changed working) =
      replaceOrAppend MeetingArtifactDocument.id changed working ++ [new] := by
    intro changed hchanged new hnew
    apply replaceOrAppend_of_notMem
    rw [map_replaceOrAppend_of_mem (hchanged ▸ htarget), hnew]
    exact hfresh
  cases actionAt decisions index with
  | createNew =>
    exact .created (some target) { incoming with resolution := .new } rfl
      ⟨hid, hwindows, hchunks, hsuperseded⟩ hstatus hoperation
      (replaceOrAppend_of_notMem (hid ▸ hfresh))
  | completeExisting => exact .completed target _ rfl ⟨hid, hwindows, hchunks, hsuperseded⟩ rfl
  | cancelExisting => exact .cancelled target _ rfl ⟨hid, hwindows, hchunks, hsuperseded⟩ rfl
  | updateExisting =>
    cases h : cancels item with
    | true =>
      rw [applyResolution_of_cancels rfl (by simp [resolutionFromAction]) (hcancels.trans h)]
      exact .cancelled target _ (if_pos h) ⟨hid, hwindows, hchunks, hsuperseded⟩ rfl
    | false =>
      rw [applyResolution_of_not_cancels rfl (by simp [resolutionFromAction]) (hcancels.trans h)]
      exact .updated target _ (if_neg (ne_true_of_eq_false h)) ⟨hid, hwindows, hchunks, hsuperseded⟩
        rfl
  | supersedeExisting =>
    cases h : cancels item with
    | true =>
      rw [applyResolution_of_cancels rfl (by simp [resolutionFromAction]) (hcancels.trans h)]
      exact .cancelled target _ (if_pos h) ⟨hid, hwindows, hchunks, hsuperseded⟩ rfl
    | false =>
      rw [applyResolution_of_not_cancels rfl (by simp [resolutionFromAction]) (hcancels.trans h)]
      let new : MeetingArtifactDocument := { incoming with resolution := .contradiction }
      exact .superseded target new (if_neg (ne_true_of_eq_false h))
        ⟨hid, hwindows, hchunks, hsuperseded⟩
        (happend (supersededTarget target new (some .supersedeExisting)) rfl
          (successor target new) hid)
  | relatedButDistinct =>
    cases h : cancels item with
    | true =>
      rw [applyResolution_of_cancels rfl (by simp [resolutionFromAction]) (hcancels.trans h)]
      exact .cancelled target _ (if_pos h) ⟨hid, hwindows, hchunks, hsuperseded⟩ rfl
    | false =>
      rw [applyResolution_of_not_cancels rfl (by simp [resolutionFromAction]) (hcancels.trans h)]
      let new : MeetingArtifactDocument :=
        { incoming with
          relatedArtifactIds := unique (incoming.relatedArtifactIds ++ [target.id])
          resolution := .related }
      exact .related target new (if_neg (ne_true_of_eq_false h))
        ⟨hid, hwindows, hchunks, hsuperseded⟩
        (happend (relatedTarget target new) rfl (relatedIncoming target new) hid)

theorem applyDecision_applied (unicode : Text.Unicode)
    (decisions : List ArtifactReconcileDecision) (index : Nat) {item : MeetingArtifactDocument}
    {working : List MeetingArtifactDocument} (hfresh : item.id ∉ idsOf working) :
    Applied unicode working item (actionAt decisions index)
      (applyDecision unicode decisions index item working)
      (findById working (targetAt decisions index)) := by
  cases hfound : findById working (targetAt decisions index) with
  | none => exact applied_of_not_found hfresh hfound
  | some target => exact applied_of_found hfresh hfound

theorem Carries.refl (artifact : MeetingArtifactDocument) : Carries artifact artifact :=
  ⟨fun _ h _ => h, fun _ h => h⟩

theorem Carries.trans {first second third : MeetingArtifactDocument} (h : Carries first second)
    (h' : Carries second third) : Carries first third :=
  ⟨fun window hwindow hne => h.windows window (h'.windows window hwindow hne) hne,
    fun chunk hchunk => h.chunks chunk (h'.chunks chunk hchunk)⟩

theorem SameOrigin.carries {artifact item : MeetingArtifactDocument}
    (h : SameOrigin artifact item) : Carries artifact item :=
  ⟨fun _ hwindow _ => h.windows ▸ hwindow, fun _ hchunk => h.chunks ▸ hchunk⟩

theorem mem_firstByKey {value : String} {values : List String} :
    ∀ {seen : List String}, value ∈ values → value ∉ seen → value ∈ firstByKey id seen values := by
  induction values with
  | nil =>
    intro seen h
    cases h
  | cons first rest ih =>
    intro seen h hseen
    unfold firstByKey
    by_cases hfirst : id first ∈ seen
    · rw [if_pos hfirst]
      rcases List.mem_cons.mp h with rfl | hrest
      · exact absurd hfirst hseen
      · exact ih hrest hseen
    · rw [if_neg hfirst]
      by_cases hsame : value = first
      · exact hsame ▸ List.mem_cons_self
      · apply List.mem_cons_of_mem
        apply ih ((List.mem_cons.mp h).resolve_left hsame)
        rw [List.mem_cons, not_or]
        exact ⟨hsame, hseen⟩

theorem mem_unique {value : String} {values : List String} (h : value ∈ values)
    (hne : value ≠ "") : value ∈ unique values := by
  apply mem_firstByKey
  · exact List.mem_filter.mpr ⟨h, decide_eq_true hne⟩
  · exact List.not_mem_nil

theorem mem_sortedUnion {value : Int} {left right : List Int} :
    value ∈ sortedUnion left right ↔ value ∈ left ∨ value ∈ right := by
  rw [sortedUnion, List.mem_insertionSort, List.mem_dedup, List.mem_append]

variable {changed : MeetingArtifactDocument}

theorem carries_of_merged {incoming : MeetingArtifactDocument}
    (hwindows : changed.sourceWindowIds =
      unique (target.sourceWindowIds ++ incoming.sourceWindowIds))
    (hchunks : changed.sourceChunkIds = sortedUnion target.sourceChunkIds incoming.sourceChunkIds) :
    Carries changed target ∧ Carries changed incoming := by
  refine ⟨⟨fun window hwindow hne => ?_, fun chunk hchunk => ?_⟩,
    ⟨fun window hwindow hne => ?_, fun chunk hchunk => ?_⟩⟩
  · exact hwindows ▸ mem_unique (List.mem_append_left _ hwindow) hne
  · exact hchunks ▸ mem_sortedUnion.mpr (.inl hchunk)
  · exact hwindows ▸ mem_unique (List.mem_append_right _ hwindow) hne
  · exact hchunks ▸ mem_sortedUnion.mpr (.inr hchunk)

def Keeps (working result : List MeetingArtifactDocument) : Prop :=
  ∀ artifact ∈ working, ∃ kept ∈ result, kept.id = artifact.id ∧ Carries kept artifact

theorem Keeps.refl (working : List MeetingArtifactDocument) : Keeps working working :=
  fun artifact h => ⟨artifact, h, rfl, .refl artifact⟩

theorem Keeps.trans {first second third : List MeetingArtifactDocument} (h : Keeps first second)
    (h' : Keeps second third) : Keeps first third := by
  intro artifact hmem
  obtain ⟨kept, hkept, hid, hcarries⟩ := h artifact hmem
  obtain ⟨last, hlast, hidLast, hcarriesLast⟩ := h' kept hkept
  exact ⟨last, hlast, hidLast.trans hid, hcarriesLast.trans hcarries⟩

theorem Keeps.append (working : List MeetingArtifactDocument) (new : MeetingArtifactDocument) :
    Keeps working (working ++ [new]) :=
  fun artifact h => ⟨artifact, List.mem_append_left _ h, rfl, .refl artifact⟩

theorem Keeps.replace {working : List MeetingArtifactDocument} (hnodup : (idsOf working).Nodup)
    (hmem : target ∈ working) (hid : changed.id = target.id) (hcarries : Carries changed target) :
    Keeps working (replaceOrAppend MeetingArtifactDocument.id changed working) := by
  intro artifact h
  by_cases hsame : artifact.id = changed.id
  · have heq : artifact = target := eq_of_key hnodup h hmem (hsame.trans hid)
    exact ⟨changed, mem_replaceOrAppend_self changed working, hsame.symm, heq ▸ hcarries⟩
  · exact ⟨artifact, mem_replaceOrAppend_of_ne h hsame, rfl, .refl artifact⟩

theorem idsOf_replace {working : List MeetingArtifactDocument} (hmem : target ∈ working)
    (hid : changed.id = target.id) :
    idsOf (replaceOrAppend MeetingArtifactDocument.id changed working) = idsOf working :=
  map_replaceOrAppend_of_mem (hid ▸ List.mem_map_of_mem hmem)

theorem Accounted.keeps {target : Option String} {item : MeetingArtifactDocument}
    {working result : List MeetingArtifactDocument} (h : Accounted target item working)
    (hkeeps : Keeps working result) : Accounted target item result := by
  obtain ⟨artifact, hmem, hcarries, hid⟩ := h
  obtain ⟨kept, hkept, hkeptId, hkeptCarries⟩ := hkeeps artifact hmem
  exact ⟨kept, hkept, hkeptCarries.trans hcarries, hkeptId ▸ hid⟩

section Step

variable {unicode : Text.Unicode} {working result : List MeetingArtifactDocument}
  {item : MeetingArtifactDocument} {action : ReconcileAction}
  {matched : Option MeetingArtifactDocument}

section

variable (h : Applied unicode working item action result matched)

include h

theorem Applied.ids (hmem : ∀ target, matched = some target → target ∈ working) :
    idsOf result = idsOf working ∨ idsOf result = idsOf working ++ [item.id] := by
  have happend : ∀ (list : List MeetingArtifactDocument) (new : MeetingArtifactDocument),
      idsOf list = idsOf working → new.id = item.id →
      idsOf (list ++ [new]) = idsOf working ++ [item.id] := by
    intro list new hlist hid
    rw [idsOf, List.map_append, List.map_singleton, hid]
    exact congrArg (· ++ [item.id]) hlist
  cases h with
  | skipped kind list => exact .inl (congrArg idsOf list)
  | created matched new kind same status operation list =>
    exact .inr (list ▸ happend working new rfl same.id)
  | cancelled target incoming kind same list =>
    exact .inl (list ▸ idsOf_replace (hmem target rfl) rfl)
  | completed target incoming kind same list =>
    exact .inl (list ▸ idsOf_replace (hmem target rfl) rfl)
  | updated target incoming kind same list =>
    exact .inl (list ▸ idsOf_replace (hmem target rfl) rfl)
  | superseded target incoming kind same list =>
    exact .inr (list ▸ happend _ _ (idsOf_replace (hmem target rfl) rfl) same.id)
  | related target incoming kind same list =>
    exact .inr (list ▸ happend _ _ (idsOf_replace (hmem target rfl) rfl) same.id)

theorem Applied.keeps (hnodup : (idsOf working).Nodup)
    (hmem : ∀ target, matched = some target → target ∈ working) : Keeps working result := by
  cases h with
  | skipped kind list => exact list ▸ .refl working
  | created matched new kind same status operation list => exact list ▸ .append working new
  | cancelled target incoming kind same list =>
    have hcarries : Carries (Conversation.cancelled unicode target incoming (some action)) target ∧
        Carries (Conversation.cancelled unicode target incoming (some action)) incoming :=
      carries_of_merged rfl rfl
    exact list ▸ .replace hnodup (hmem target rfl) rfl hcarries.1
  | completed target incoming kind same list =>
    have hcarries : Carries (Conversation.completed unicode target incoming (some action)) target ∧
        Carries (Conversation.completed unicode target incoming (some action)) incoming :=
      carries_of_merged rfl rfl
    exact list ▸ .replace hnodup (hmem target rfl) rfl hcarries.1
  | updated target incoming kind same list =>
    have hcarries : Carries (Conversation.updated unicode target incoming (some action)) target ∧
        Carries (Conversation.updated unicode target incoming (some action)) incoming :=
      carries_of_merged rfl rfl
    exact list ▸ .replace hnodup (hmem target rfl) rfl hcarries.1
  | superseded target incoming kind same list =>
    have hkeeps : Keeps working (replaceOrAppend MeetingArtifactDocument.id
        (supersededTarget target incoming (some action)) working) :=
      .replace hnodup (hmem target rfl) rfl ⟨fun _ h _ => h, fun _ h => h⟩
    exact list ▸ hkeeps.trans (.append _ (successor target incoming))
  | related target incoming kind same list =>
    have hkeeps : Keeps working (replaceOrAppend MeetingArtifactDocument.id
        (relatedTarget target incoming) working) :=
      .replace hnodup (hmem target rfl) rfl ⟨fun _ h _ => h, fun _ h => h⟩
    exact list ▸ hkeeps.trans (.append _ (relatedIncoming target incoming))

theorem Applied.accounts :
    Accounted (matched.map MeetingArtifactDocument.id) item result ∨
      (action.modifying = true ∧ matched = none) := by
  have hmerged : ∀ changed target incoming : MeetingArtifactDocument, changed.id = target.id →
      Carries changed incoming → SameOrigin incoming item →
      Accounted (some target.id) item
        (replaceOrAppend MeetingArtifactDocument.id changed working) := by
    intro changed target incoming hid hcarries hsame
    exact ⟨changed, mem_replaceOrAppend_self changed working, hcarries.trans hsame.carries,
      .inr (congrArg some hid.symm)⟩
  have hadded : ∀ (list : List MeetingArtifactDocument) (new : MeetingArtifactDocument)
      (target : Option String), SameOrigin new item → Accounted target item (list ++ [new]) := by
    intro list new target hsame
    exact ⟨new, List.mem_append_right _ (List.mem_singleton_self new), hsame.carries,
      .inl hsame.id⟩
  cases h with
  | skipped kind list =>
    refine .inr ⟨?_, rfl⟩
    cases hmodifying : action.modifying with
    | true => rfl
    | false => simp [outcome, hmodifying] at kind
  | created matched new kind same status operation list =>
    exact .inl (list ▸ hadded working new _ same)
  | cancelled target incoming kind same list =>
    exact .inl (list ▸ hmerged _ target incoming rfl (carries_of_merged rfl rfl).2 same)
  | completed target incoming kind same list =>
    exact .inl (list ▸ hmerged _ target incoming rfl (carries_of_merged rfl rfl).2 same)
  | updated target incoming kind same list =>
    exact .inl (list ▸ hmerged _ target incoming rfl (carries_of_merged rfl rfl).2 same)
  | superseded target incoming kind same list =>
    exact .inl (list ▸ hadded _ (successor target incoming) _
      ⟨same.id, same.windows, same.chunks, same.supersededBy⟩)
  | related target incoming kind same list =>
    exact .inl (list ▸ hadded _ (relatedIncoming target incoming) _
      ⟨same.id, same.windows, same.chunks, same.supersededBy⟩)

end

end Step

theorem nodup_after {working result : List MeetingArtifactDocument}
    {item : MeetingArtifactDocument} (hnodup : (idsOf working).Nodup)
    (hfresh : item.id ∉ idsOf working)
    (hids : idsOf result = idsOf working ∨ idsOf result = idsOf working ++ [item.id]) :
    (idsOf result).Nodup := by
  rcases hids with h | h
  · exact h ▸ hnodup
  · rw [h, List.nodup_append]
    refine ⟨hnodup, List.nodup_singleton _, ?_⟩
    rintro id hid other hother rfl
    exact hfresh (List.mem_singleton.mp hother ▸ hid)

theorem fresh_after {working result : List MeetingArtifactDocument}
    {item other : MeetingArtifactDocument} (hfresh : other.id ∉ idsOf working)
    (hne : other.id ≠ item.id)
    (hids : idsOf result = idsOf working ∨ idsOf result = idsOf working ++ [item.id]) :
    other.id ∉ idsOf result := by
  intro hmem
  rcases hids with h | h
  · exact hfresh (h ▸ hmem)
  · rw [h] at hmem
    rcases List.mem_append.mp hmem with hmem | hmem
    · exact hfresh hmem
    · exact hne (List.mem_singleton.mp hmem)

theorem applyDecision_keeps (unicode : Text.Unicode)
    (decisions : List ArtifactReconcileDecision) (index : Nat) {item : MeetingArtifactDocument}
    {working : List MeetingArtifactDocument} (hnodup : (idsOf working).Nodup)
    (hfresh : item.id ∉ idsOf working) :
    let result := applyDecision unicode decisions index item working
    Keeps working result ∧
    (idsOf result = idsOf working ∨ idsOf result = idsOf working ++ [item.id]) ∧
    (Accounted (targetAt decisions index) item result ∨
      ((actionAt decisions index).modifying = true ∧
        findById working (targetAt decisions index) = none)) := by
  have happlied := applyDecision_applied unicode decisions index hfresh
  have hmem : ∀ target, findById working (targetAt decisions index) = some target →
      target ∈ working := fun target h => (findById_eq_some h).1
  refine ⟨happlied.keeps hnodup hmem, happlied.ids hmem, ?_⟩
  rcases happlied.accounts with ⟨artifact, hartifact, hcarries, hid⟩ | hskipped
  · refine .inl ⟨artifact, hartifact, hcarries, hid.imp_right fun htarget => ?_⟩
    obtain ⟨target, hfound, hsame⟩ := Option.map_eq_some_iff.mp htarget
    rw [(findById_eq_some hfound).2, hsame]
  · exact .inr hskipped

theorem applyFrom_keeps (unicode : Text.Unicode) (decisions : List ArtifactReconcileDecision)
    {incoming : List MeetingArtifactDocument} :
    ∀ (index : Nat) (working : List MeetingArtifactDocument), (idsOf working).Nodup →
      (idsOf incoming).Nodup → (∀ item ∈ incoming, item.id ∉ idsOf working) →
      let result := applyFrom unicode decisions index incoming working
      Keeps working result ∧
      (∃ added, added.Sublist (idsOf incoming) ∧ idsOf result = idsOf working ++ added) ∧
      ∀ n item, incoming[n]? = some item →
        Accounted (targetAt decisions (index + n)) item result ∨
          ((actionAt decisions (index + n)).modifying = true ∧
            findById (applyFrom unicode decisions index (incoming.take n) working)
              (targetAt decisions (index + n)) = none) := by
  induction incoming with
  | nil =>
    intro index working _ _ _
    exact ⟨.refl working, ⟨[], .refl [], (List.append_nil _).symm⟩, fun n item h => by simp at h⟩
  | cons first rest ih =>
    intro index working hnodup hincoming hfresh
    obtain ⟨hfirst, hrest⟩ := List.nodup_cons.mp hincoming
    obtain ⟨hkeeps, hids, haccounts⟩ := applyDecision_keeps unicode decisions index hnodup
      (hfresh first List.mem_cons_self)
    generalize hnext : applyDecision unicode decisions index first working = next at *
    have hnextNodup : (idsOf next).Nodup :=
      nodup_after hnodup (hfresh first List.mem_cons_self) hids
    have hnextFresh : ∀ item ∈ rest, item.id ∉ idsOf next := by
      intro item hitem
      apply fresh_after (hfresh item (List.mem_cons_of_mem _ hitem)) _ hids
      exact fun hsame => hfirst (hsame ▸ List.mem_map_of_mem hitem)
    obtain ⟨hkeepsRest, ⟨added, hsublist, hidsRest⟩, haccountsRest⟩ :=
      ih (index + 1) next hnextNodup hrest hnextFresh
    have hstep : ∀ items, applyFrom unicode decisions index (first :: items) working =
        applyFrom unicode decisions (index + 1) items next := by
      intro items
      rw [applyFrom, hnext]
    rw [hstep]
    refine ⟨hkeeps.trans hkeepsRest, ?_, ?_⟩
    · rcases hids with h | h
      · exact ⟨added, hsublist.cons _, h ▸ hidsRest⟩
      · refine ⟨first.id :: added, hsublist.cons_cons _, ?_⟩
        rw [hidsRest, h, List.append_assoc, List.singleton_append]
    · intro n item hitem
      cases n with
      | zero =>
        obtain rfl : first = item := Option.some.inj hitem
        exact haccounts.imp_left fun h => h.keeps hkeepsRest
      | succ n =>
        have hindex : index + 1 + n = index + (n + 1) := by omega
        have hlater := haccountsRest n item hitem
        rw [hindex] at hlater
        rw [List.take_succ_cons, hstep]
        exact hlater

/-- `apply_llm_decisions` keeps every existing artifact in its place, adds new ones behind them,
and accounts for every incoming artifact whose decision finds the target it needs. -/
theorem incoming_accounted (unicode : Text.Unicode)
    (existing incoming : List MeetingArtifactDocument)
    (decisions : List ArtifactReconcileDecision) (hexisting : (idsOf existing).Nodup)
    (hincoming : (idsOf incoming).Nodup)
    (hfresh : ∀ item ∈ incoming, item.id ∉ idsOf existing) :
    let result := applyLlmDecisions unicode existing incoming decisions
    (idsOf result).Nodup ∧
    (∃ added, added.Sublist (idsOf incoming) ∧ idsOf result = idsOf existing ++ added) ∧
    ∀ n item, incoming[n]? = some item →
      ((actionAt decisions n).modifying = true →
        (findById (applyLlmDecisions unicode existing (incoming.take n) decisions)
          (targetAt decisions n)).isSome = true) →
      Accounted (targetAt decisions n) item result := by
  obtain ⟨_, ⟨added, hsublist, hids⟩, haccounts⟩ :=
    applyFrom_keeps unicode decisions 0 existing hexisting hincoming hfresh
  refine ⟨?_, ⟨added, hsublist, hids⟩, ?_⟩
  · rw [applyLlmDecisions, hids, List.nodup_append]
    refine ⟨hexisting, hincoming.sublist hsublist, ?_⟩
    rintro id hid other hother rfl
    obtain ⟨item, hitem, hitemId⟩ := List.mem_map.mp (hsublist.subset hother)
    exact hfresh item hitem (hitemId ▸ hid)
  · intro n item hitem hfound
    rcases haccounts n item hitem with h | ⟨hmodifying, hnone⟩
    · exact Nat.zero_add n ▸ h
    · rw [Nat.zero_add] at hmodifying hnone
      have hsome := hfound hmodifying
      rw [applyLlmDecisions, hnone] at hsome
      cases hsome

def sampleUnicode : Text.Unicode := { foldKC := id, isWord := Char.isAlphanum }

def sampleArtifact (id : String) (operation : Operation) : MeetingArtifactDocument :=
  { id := id
    identityKey := id
    artifactType := .task
    title := "Send the report"
    content := "Send the report to Priya"
    status := statusForOperation (some operation)
    sourceWindowIds := ["w-" ++ id]
    sourceChunkIds := [0, 1]
    evidence := [{ sequenceStart := 0, sequenceEnd := 1, text := "send the report" }]
    operation := some operation }

theorem incoming_accounted_sample :
    Accounted (some "a1") (sampleArtifact "b1" .update)
      (applyLlmDecisions sampleUnicode [sampleArtifact "a1" .create]
        [sampleArtifact "b1" .update]
        [{ incomingIndex := 0, action := .updateExisting, targetArtifactId := some "a1" }]) :=
  (incoming_accounted sampleUnicode [sampleArtifact "a1" .create] [sampleArtifact "b1" .update]
    [{ incomingIndex := 0, action := .updateExisting, targetArtifactId := some "a1" }]
    (by decide) (by decide) (by decide)).2.2 0 (sampleArtifact "b1" .update) rfl (fun _ => rfl)

/-- An update without a target drops its artifact. -/
theorem update_without_target_dropped :
    ¬ Accounted none (sampleArtifact "b1" .update)
      (applyLlmDecisions sampleUnicode [sampleArtifact "a1" .create]
        [sampleArtifact "b1" .update] [{ incomingIndex := 0, action := .updateExisting }]) := by
  rintro ⟨artifact, hmem, -, hid | htarget⟩
  · have hsame : artifact = sampleArtifact "a1" .create := List.mem_singleton.mp hmem
    rw [hsame] at hid
    exact absurd hid (by decide)
  · cases htarget

end AiBuddy.Conversation
