import AiBuddy.Conversation.Proofs.TranscriptLines

/-!
# Every persisted chunk is counted once

The loop of `assemble_semantic_window_input` rejects a chunk for one reason or keeps it. What it
keeps are the eligible chunks, one for each sequence number, and the text has a line for each of
them but those whose text was removed as an overlap.
-/

namespace AiBuddy.Conversation.SemanticInput

open Session

variable (casefold : String → String) (settings : Settings) (request : Request)

def rejectedTotal (counts : RejectionReason → Nat) : Nat := (allowedRejectionReasons.map counts).sum

theorem rejectedTotal_reject (counting : Counting) (reason : RejectionReason) :
    rejectedTotal (counting.reject reason).rejectionCounts =
      rejectedTotal counting.rejectionCounts + 1 := by
  cases reason <;>
    simp only [rejectedTotal, allowedRejectionReasons, Counting.reject, List.map_cons,
      List.map_nil, List.sum_cons, List.sum_nil, reduceCtorEq, if_true, if_false] <;> omega

theorem technicalExclusionReason_eq_none_iff (chunk : Chunk) :
    technicalExclusionReason casefold chunk = none ↔ completedNonEmpty chunk = true := by
  unfold technicalExclusionReason completedNonEmpty
  generalize (chunk.excluded &&
    !Text.contains "empty" (casefold (chunk.exclusionReason.getD ""))) = marked
  cases marked <;> cases hstatus : chunk.sttStatus <;> cases huseful : chunk.useful <;> simp

def Counting.Keeps (request : Request) (counting : Counting) (chunk : PersistedChunk) : Prop :=
  eligible request chunk = true ∧ chunk.sequenceNumber ∉ counting.seen

theorem step_cases (counting : Counting) (chunk : PersistedChunk) :
    (counting.Keeps request chunk ∧
      (counting.step casefold request chunk).rejectionCounts = counting.rejectionCounts ∧
      (counting.step casefold request chunk).seen = chunk.sequenceNumber :: counting.seen ∧
      (counting.step casefold request chunk).useful = counting.useful ++ [chunk]) ∨
    (¬counting.Keeps request chunk ∧
      (∃ reason, (counting.step casefold request chunk).rejectionCounts =
        (counting.reject reason).rejectionCounts) ∧
      (counting.step casefold request chunk).seen = counting.seen ∧
      (counting.step casefold request chunk).useful = counting.useful) := by
  have hall : sameConversation chunk.conversationId "" = true := rfl
  unfold Counting.step Counting.Keeps eligible
  split
  · next hother => exact .inr ⟨by simp [hother.2], ⟨_, rfl⟩, rfl, rfl⟩
  · next hsame =>
    have hconversation : sameConversation chunk.conversationId request.conversationId = true := by
      by_cases hempty : request.conversationId = ""
      · rw [hempty]
        exact hall
      · cases heq : sameConversation chunk.conversationId request.conversationId with
        | true => rfl
        | false => exact absurd ⟨hempty, heq⟩ hsame
    dsimp only
    split
    · next hrange =>
      refine .inr ⟨?_, ⟨_, rfl⟩, rfl, rfl⟩
      rcases hrange with hout | howned
      · simp [hout]
      · simp [howned]
    · next hrange =>
      rw [not_or, Bool.not_eq_false, Bool.not_eq_true] at hrange
      split
      · next hseen => exact .inr ⟨fun h => h.2 hseen, ⟨_, rfl⟩, rfl, rfl⟩
      · next hnew =>
        have hiff := technicalExclusionReason_eq_none_iff casefold chunk.toChunk
        split
        · next reason hreason =>
          have hnot : completedNonEmpty chunk.toChunk = false := by
            rw [← Bool.not_eq_true, ← hiff, hreason]
            exact Option.some_ne_none _
          exact .inr ⟨by simp [hnot], ⟨_, rfl⟩, rfl, rfl⟩
        · next hnone =>
          refine .inl ⟨⟨?_, hnew⟩, rfl, rfl, rfl⟩
          simp [hconversation, hiff.mp hnone, hrange]

/-- The loop has read the chunks `done`. -/
structure Counted (request : Request) (done : List PersistedChunk) (counting : Counting) :
    Prop where
  total : rejectedTotal counting.rejectionCounts + counting.useful.length = done.length
  seen : ∀ sequence, sequence ∈ counting.seen ↔
    sequence ∈ counting.useful.map fun chunk => chunk.sequenceNumber
  distinct : (counting.useful.map fun chunk => chunk.sequenceNumber).Nodup
  sublist : counting.useful.Sublist done
  eligible : ∀ chunk ∈ counting.useful, eligible request chunk = true
  complete : ∀ chunk ∈ done, SemanticInput.eligible request chunk = true →
    chunk.sequenceNumber ∈ counting.useful.map fun chunk => chunk.sequenceNumber

variable {request} in
theorem Counted.step {done : List PersistedChunk} {counting : Counting}
    (h : Counted request done counting) (chunk : PersistedChunk) :
    Counted request (done ++ [chunk]) (counting.step casefold request chunk) := by
  rcases step_cases casefold request counting chunk with
    ⟨hkeeps, hcounts, hseen, huseful⟩ | ⟨hnot, ⟨reason, hcounts⟩, hseen, huseful⟩
  · have hnew : chunk.sequenceNumber ∉ counting.useful.map fun chunk => chunk.sequenceNumber :=
      fun hmem => hkeeps.2 ((h.seen _).mpr hmem)
    constructor
    · rw [hcounts, huseful, List.length_append, List.length_append, ← h.total]
      exact (Nat.add_assoc _ _ _).symm
    · intro sequence
      rw [hseen, huseful, List.map_append, List.mem_append, List.mem_cons, h.seen,
        List.map_singleton, List.mem_singleton]
      exact or_comm
    · rw [huseful, List.map_append, List.map_singleton, List.nodup_append']
      refine ⟨h.distinct, List.nodup_singleton _, fun sequence hold hmem => hnew ?_⟩
      rw [← List.mem_singleton.mp hmem]
      exact hold
    · rw [huseful]
      exact h.sublist.append (List.Sublist.refl _)
    · intro item hitem
      rw [huseful] at hitem
      rcases List.mem_append.mp hitem with hmem | hmem
      · exact h.eligible item hmem
      · rw [List.mem_singleton.mp hmem]
        exact hkeeps.1
    · intro item hitem heligible
      rw [huseful, List.map_append]
      rcases List.mem_append.mp hitem with hmem | hmem
      · exact List.mem_append_left _ (h.complete item hmem heligible)
      · rw [List.mem_singleton.mp hmem]
        exact List.mem_append_right _ List.mem_cons_self
  · constructor
    · rw [hcounts, rejectedTotal_reject, huseful, List.length_append, ← h.total]
      exact Nat.add_right_comm _ _ _
    · rw [hseen, huseful]
      exact h.seen
    · rw [huseful]
      exact h.distinct
    · rw [huseful]
      exact h.sublist.trans (List.sublist_append_left _ _)
    · rw [huseful]
      exact h.eligible
    · intro item hitem heligible
      rw [huseful]
      rcases List.mem_append.mp hitem with hmem | hmem
      · exact h.complete item hmem heligible
      · rw [List.mem_singleton.mp hmem] at heligible ⊢
        by_contra hnone
        exact hnot ⟨heligible, fun hold => hnone ((h.seen _).mp hold)⟩

variable (chunks : List PersistedChunk)

theorem counted_run :
    Counted request chunks (chunks.foldl (Counting.step casefold request) {}) := by
  have hrun : ∀ (rest done : List PersistedChunk) (counting : Counting),
      Counted request done counting →
      Counted request (done ++ rest) (rest.foldl (Counting.step casefold request) counting) := by
    intro rest
    induction rest with
    | nil =>
      intro done counting h
      rw [List.append_nil]
      exact h
    | cons chunk rest ih =>
      intro done counting h
      rw [List.foldl_cons, ← List.singleton_append, ← List.append_assoc]
      exact ih _ _ (h.step casefold chunk)
  refine hrun chunks [] {} ⟨rfl, fun _ => Iff.rfl, List.nodup_nil, .slnil, ?_, ?_⟩
  · exact fun _ hmem => absurd hmem List.not_mem_nil
  · exact fun _ hmem => absurd hmem List.not_mem_nil

/-- `useful` when the text is made from it. -/
def usefulChunks (chunks : List PersistedChunk) : List PersistedChunk :=
  sortedChunks ((sortedChunks chunks).foldl (Counting.step casefold request) {}).useful

theorem usefulChunks_spec :
    ((usefulChunks casefold request chunks).map fun chunk => chunk.sequenceNumber).Pairwise
        (· < ·) ∧
      (∀ chunk ∈ usefulChunks casefold request chunks,
        chunk ∈ chunks ∧ eligible request chunk = true) ∧
      ∀ sequence, sequence ∈ ((usefulChunks casefold request chunks).map
          fun chunk => chunk.sequenceNumber) ↔
        ∃ chunk ∈ chunks, eligible request chunk = true ∧ chunk.sequenceNumber = sequence := by
  have hcounted := counted_run casefold request (sortedChunks chunks)
  unfold usefulChunks
  generalize hrun : (sortedChunks chunks).foldl (Counting.step casefold request) {} = counting
    at hcounted ⊢
  have hperm : (sortedChunks counting.useful).Perm counting.useful := Keyed.perm_sort _
  have hmem : ∀ chunk ∈ counting.useful, chunk ∈ chunks := fun chunk hmem =>
    Keyed.mem_sort.mp (hcounted.sublist.subset hmem)
  refine ⟨?_, fun chunk hchunk => ?_, fun sequence => ⟨fun hsequence => ?_, ?_⟩⟩
  · have hdistinct : ((sortedChunks counting.useful).map fun chunk =>
        chunk.sequenceNumber).Nodup := (hperm.map _).nodup_iff.mpr hcounted.distinct
    have hsorted : (sortedChunks counting.useful).Pairwise
        fun first later => first.sequenceNumber ≤ later.sequenceNumber :=
      Keyed.sorted_sort counting.useful
    exact ((List.pairwise_map.mpr hsorted).and hdistinct).imp fun h =>
      Nat.lt_of_le_of_ne h.1 h.2
  · have huseful := hperm.mem_iff.mp hchunk
    exact ⟨hmem chunk huseful, hcounted.eligible chunk huseful⟩
  · obtain ⟨chunk, hchunk, rfl⟩ := List.mem_map.mp hsequence
    have huseful := hperm.mem_iff.mp hchunk
    exact ⟨chunk, hmem chunk huseful, hcounted.eligible chunk huseful, rfl⟩
  · rintro ⟨chunk, hchunk, heligible, rfl⟩
    exact (hperm.map _).mem_iff.mpr
      (hcounted.complete chunk (Keyed.mem_sort.mpr hchunk) heligible)

theorem useful_of_eligible {request : Request} {chunk : PersistedChunk}
    (h : eligible request chunk = true) : chunk.useful = true := by
  rw [eligible, Bool.and_eq_true, Bool.and_eq_true, Bool.and_eq_true, completedNonEmpty,
    Bool.and_eq_true] at h
  exact h.1.1.2.1

theorem inputText_eq {useful : List PersistedChunk}
    (h : windowText settings.lower (useful.map PersistedChunk.toChunk) ≠ "") :
    inputText settings request useful =
      windowText settings.lower (useful.map PersistedChunk.toChunk) := by
  rw [inputText]
  exact if_neg h

theorem text_eq_inputText :
    (assembleSemanticWindowInput casefold settings request chunks).text =
      inputText settings request (usefulChunks casefold request chunks) := by
  unfold assembleSemanticWindowInput usefulChunks
  with_reducible rfl

theorem text_eq {chunks : List PersistedChunk} (hne : usefulChunks casefold request chunks ≠ []) :
    (assembleSemanticWindowInput casefold settings request chunks).text =
      windowText settings.lower
        ((usefulChunks casefold request chunks).map PersistedChunk.toChunk) := by
  have huseful : ∀ chunk ∈ (usefulChunks casefold request chunks).map PersistedChunk.toChunk,
      chunk.useful = true := by
    intro chunk hchunk
    obtain ⟨persisted, hmem, rfl⟩ := List.mem_map.mp hchunk
    exact useful_of_eligible ((usefulChunks_spec casefold request chunks).2.1 persisted hmem).2
  have hmapped : (usefulChunks casefold request chunks).map PersistedChunk.toChunk ≠ [] :=
    fun hnil => hne (List.map_eq_nil_iff.mp hnil)
  have hkept := keptLines_ne_nil settings.lower_nil hmapped huseful
  rw [text_eq_inputText]
  exact inputText_eq settings request (windowText_ne_empty hkept)

/-- Every persisted chunk is rejected for one reason or useful. The useful sequence numbers
increase and are those of the eligible chunks, and the order of chunks with distinct numbers does
not matter. Where there are some, the text names the numbers of the useful chunks that have a line:
those whose text is not wholly removed as an overlap with the line before. -/
theorem assembly_accounts (chunks : List PersistedChunk) :
    let assembly := assembleSemanticWindowInput casefold settings request chunks
    rejectedTotal assembly.rejectionCounts + assembly.usefulTranscriptCount =
        assembly.persistedTranscriptCount ∧
      assembly.persistedTranscriptCount = chunks.length ∧
      assembly.usefulSequenceNumbers.Pairwise (· < ·) ∧
      (∀ sequence, sequence ∈ assembly.usefulSequenceNumbers ↔
        ∃ chunk ∈ chunks, eligible request chunk = true ∧ chunk.sequenceNumber = sequence) ∧
      (∀ other : List PersistedChunk, other.Perm chunks →
        (chunks.map fun chunk => chunk.sequenceNumber).Nodup →
        assembleSemanticWindowInput casefold settings request other = assembly) ∧
      (assembly.usefulSequenceNumbers ≠ [] →
        ∃ useful : List PersistedChunk,
          (∀ chunk ∈ useful, chunk ∈ chunks ∧ eligible request chunk = true) ∧
          useful.map (fun chunk => chunk.sequenceNumber) = assembly.usefulSequenceNumbers ∧
          (parsedSemanticSequences assembly.text).map Prod.fst =
            (keptLines settings.lower "" (useful.map PersistedChunk.toChunk)).map
              fun kept => kept.1.sequenceNumber) := by
  intro assembly
  obtain ⟨hincreasing, hmem, hiff⟩ := usefulChunks_spec casefold request chunks
  refine ⟨?_, ?_, hincreasing, hiff, fun other hperm hnodup => ?_, fun hne => ?_⟩
  · have hlength : (usefulChunks casefold request chunks).length =
        ((sortedChunks chunks).foldl (Counting.step casefold request) {}).useful.length :=
      (Keyed.perm_sort _).length_eq
    have htotal := (counted_run casefold request (sortedChunks chunks)).total
    rw [← hlength] at htotal
    exact htotal
  · exact (Keyed.perm_sort chunks).length_eq
  · have hsorted : sortedChunks other = sortedChunks chunks := Keyed.sort_eq_of_perm hperm hnodup
    change assembleSemanticWindowInput casefold settings request other =
      assembleSemanticWindowInput casefold settings request chunks
    rw [assembleSemanticWindowInput, assembleSemanticWindowInput, hsorted]
  · refine ⟨usefulChunks casefold request chunks, hmem, rfl, ?_⟩
    have huseful : usefulChunks casefold request chunks ≠ [] := by
      intro hnil
      apply hne
      change (usefulChunks casefold request chunks).map _ = []
      rw [hnil]
      rfl
    have hnodup : (((usefulChunks casefold request chunks).map PersistedChunk.toChunk).map
        Chunk.sequenceNumber).Nodup := by
      rw [List.map_map]
      exact hincreasing.imp Nat.ne_of_lt
    change (parsedSemanticSequences
      (assembleSemanticWindowInput casefold settings request chunks).text).map Prod.fst = _
    rw [text_eq casefold settings request huseful]
    exact parsed_windowText settings.lower hnodup

def persisted (conversationId : String) (sequence : Nat) (text : String) : PersistedChunk :=
  { spoken sequence text with conversationId }

/-- The second chunk says the same as the first. It is useful, but has no line. -/
theorem repeated_chunk_unnamed :
    let assembly := assembleSemanticWindowInput id {} { conversationId := "c" }
      [persisted "c" 0 "thank you everyone", persisted "c" 1 "Thank you everyone"]
    assembly.usefulSequenceNumbers = [0, 1] ∧
      (parsedSemanticSequences assembly.text).map Prod.fst = [0] := by
  decide +kernel

def NamedByCheckpoint (windows : List SemanticWindow) (sequence : Nat) : Prop :=
  ∃ window ∈ windows, isCompletedCheckpoint window = true ∧
    sequence ∈ (parsedSemanticSequences window.text).map Prod.fst

/-- Every completed chunk with a text is in the leftover or named by a checkpoint, if and only if
each of those in the range of an owned checkpoint is named by one. -/
theorem nothing_between_iff (conversationId : String) (windows : List SemanticWindow)
    (chunks : List PersistedChunk) :
    (∀ chunk ∈ chunks, sameConversation chunk.conversationId conversationId = true →
      completedNonEmpty chunk.toChunk = true →
      chunk.sequenceNumber ∈ (assembleSemanticWindowInput casefold settings
        { conversationId, windows, mode := .leftover } chunks).usefulSequenceNumbers ∨
      NamedByCheckpoint windows chunk.sequenceNumber) ↔
    ∀ chunk ∈ chunks, sameConversation chunk.conversationId conversationId = true →
      completedNonEmpty chunk.toChunk = true →
      checkpointOwned windows chunk.sequenceNumber = true →
      NamedByCheckpoint windows chunk.sequenceNumber := by
  have hiff := (usefulChunks_spec casefold { conversationId, windows, mode := .leftover }
    chunks).2.2
  have howned : ∀ sequence, Request.owned { conversationId, windows, mode := .leftover } sequence =
      checkpointOwned windows sequence := fun _ => Bool.true_and _
  refine ⟨fun h chunk hchunk hsame hcompleted hrange => ?_,
    fun h chunk hchunk hsame hcompleted => ?_⟩
  · refine (h chunk hchunk hsame hcompleted).resolve_left fun hleft => ?_
    obtain ⟨other, -, heligible, hnumber⟩ := (hiff _).mp hleft
    rw [eligible, howned, hnumber, hrange] at heligible
    simp at heligible
  · cases hrange : checkpointOwned windows chunk.sequenceNumber with
    | true => exact .inr (h chunk hchunk hsame hcompleted hrange)
    | false =>
      refine .inl ((hiff _).mpr ⟨chunk, hchunk, ?_, rfl⟩)
      rw [eligible, howned, hrange, hsame, hcompleted]
      rfl

def checkpointWindow : SemanticWindow where
  id := "w"
  windowIndex := 0
  sequenceStart := 0
  sequenceEnd := 2
  text := "[0] we start\n[2] we go on"
  status := .completed
  result := some { isCheckpoint := true }

theorem late_chunk_between :
    checkpointOwned [checkpointWindow] 1 = true ∧
      ¬∀ chunk ∈ [persisted "c" 0 "we start", persisted "c" 1 "then a task",
          persisted "c" 2 "we go on"],
        sameConversation chunk.conversationId "c" = true →
        completedNonEmpty chunk.toChunk = true →
        chunk.sequenceNumber ∈ (assembleSemanticWindowInput id {}
          { conversationId := "c", windows := [checkpointWindow], mode := .leftover }
          [persisted "c" 0 "we start", persisted "c" 1 "then a task",
            persisted "c" 2 "we go on"]).usefulSequenceNumbers ∨
        NamedByCheckpoint [checkpointWindow] chunk.sequenceNumber := by
  refine ⟨by decide, fun h => ?_⟩
  have hbetween := h (persisted "c" 1 "then a task") (by simp) rfl (by decide +kernel)
  rcases hbetween with hleft | ⟨window, hwindow, -, hnamed⟩
  · exact absurd hleft (by decide +kernel)
  · rw [List.mem_singleton.mp hwindow] at hnamed
    exact absurd hnamed (by decide +kernel)

end AiBuddy.Conversation.SemanticInput
