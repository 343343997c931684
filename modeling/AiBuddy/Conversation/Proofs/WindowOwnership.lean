import AiBuddy.Conversation.Proofs.Windowing

/-!
# Every reachable chunk is owned or skipped once

What the windows of `build_ready_windows` own, one after the other, is what the reachable chunks
with a text are, as far as windows were closed, and what they skip are reachable chunks without
one.
-/

namespace AiBuddy.Conversation.Session

def ownedNumbers (windows : List BuiltWindow) : List Nat :=
  windows.flatMap BuiltWindow.ownedSequenceNumbers

def skippedNumbers (windows : List BuiltWindow) : List Nat :=
  windows.flatMap BuiltWindow.skippedSequenceNumbers

def Building.unskipped (building : Building) : List Nat :=
  building.skippedInCurrent ++ building.pendingEmpties.map Chunk.sequenceNumber

/-- The loop has read `seen`, of which `before` are the numbers of the overlap. -/
structure Accounted (before : List Nat) (startIndex : Nat) (seen : List Chunk)
    (building : Building) : Prop where
  owned : before ++ (ownedNumbers building.windows ++ building.owned) = usefulNumbers seen
  skipped : skippedNumbers building.windows ++ building.unskipped = blankNumbers seen
  indices : building.windows.map (·.window.windowIndex) =
    List.range' startIndex building.windows.length
  index : building.index = startIndex + building.windows.length
  unskipped_late : ∀ number ∈ ownedNumbers building.windows, ∀ blank ∈ building.unskipped,
    number < blank
  pending_late : ∀ number ∈ building.owned, ∀ blank ∈ building.pendingEmpties,
    number < blank.sequenceNumber

variable {settings : Settings} {conversation : ConversationDocument} {before : List Nat}
  {startIndex : Nat} {seen : List Chunk} {building : Building}

variable (settings startIndex) in
theorem Accounted.start {overlapChunks : List Chunk}
    (huseful : ∀ chunk ∈ overlapChunks, chunk.useful = true) :
    Accounted (overlapChunks.map Chunk.sequenceNumber) startIndex overlapChunks
      (Building.start settings overlapChunks startIndex) where
  owned := by
    rw [owned_start, usefulNumbers, List.filter_eq_self.mpr huseful]
    exact List.append_nil _
  skipped := by
    rw [blankNumbers, List.filter_eq_nil_iff.mpr fun chunk hmem => by simp [huseful chunk hmem]]
    rfl
  indices := rfl
  index := rfl
  unskipped_late := fun _ hnumber => absurd hnumber List.not_mem_nil
  pending_late := fun _ _ _ hblank => absurd hblank List.not_mem_nil

theorem Accounted.flush (h : Accounted before startIndex seen building)
    (huseful : ∀ chunk ∈ building.current, chunk.useful = true)
    (howned : building.ownedExists = true) (reason : CloseReason) (finalPartial : Bool) :
    Accounted before startIndex seen
      (building.flush settings conversation reason finalPartial) := by
  have hnone := owned_flush settings conversation huseful howned reason finalPartial
  rw [flush_eq settings conversation reason finalPartial huseful howned] at hnone ⊢
  have hownedNumbers : ∀ tail, ownedNumbers (building.windows ++
      [building.close settings conversation reason finalPartial tail]) =
        ownedNumbers building.windows ++ building.owned := by
    intro tail
    rw [ownedNumbers, List.flatMap_append, List.flatMap_singleton]
    rfl
  constructor
  · dsimp only
    rw [hnone, hownedNumbers, List.append_nil]
    exact h.owned
  · rw [← h.skipped, skippedNumbers, List.flatMap_append, List.flatMap_singleton,
      List.append_assoc]
    rfl
  · dsimp only
    rw [List.map_append, h.indices, List.length_append, List.length_singleton, List.range'_concat,
      Nat.one_mul, ← h.index]
    rfl
  · dsimp only
    rw [List.length_append, List.length_singleton, h.index, Nat.add_assoc]
  · intro number hnumber blank hblank
    dsimp only at hnumber
    rw [hownedNumbers] at hnumber
    rcases List.mem_append.mp hnumber with hbefore | hnew
    · exact h.unskipped_late number hbefore blank (List.mem_append_right _ hblank)
    · obtain ⟨chunk, hchunk, rfl⟩ := List.mem_map.mp hblank
      exact h.pending_late number hnew chunk hchunk
  · rw [hnone]
    exact fun number hnumber => absurd hnumber List.not_mem_nil

theorem unskipped_takeEmpties (building : Building) :
    building.takeEmpties.unskipped = building.unskipped := List.append_nil _

theorem Accounted.takeEmpties (h : Accounted before startIndex seen building) :
    Accounted before startIndex seen building.takeEmpties where
  owned := h.owned
  skipped := by
    rw [unskipped_takeEmpties]
    exact h.skipped
  indices := h.indices
  index := h.index
  unskipped_late := by
    intro number hnumber blank hblank
    rw [unskipped_takeEmpties] at hblank
    exact h.unskipped_late number hnumber blank hblank
  pending_late := fun _ _ _ hblank => absurd hblank List.not_mem_nil

variable {chunk : Chunk}

theorem Accounted.append (h : Accounted before startIndex seen building)
    (hunderWay : UnderWay seen building) (huseful : chunk.useful = true)
    (hafter : ∀ item ∈ seen, item.sequenceNumber < chunk.sequenceNumber) (text : String)
    (tokens : Nat) :
    Accounted before startIndex (seen ++ [chunk])
      (building.takeEmpties.append chunk text tokens) where
  owned := by
    rw [hunderWay.owned_append huseful hafter, usefulNumbers_append,
      usefulNumbers_of_useful huseful, ← h.owned, List.append_assoc, List.append_assoc]
    rfl
  skipped := by
    rw [blankNumbers_append, blankNumbers_of_useful huseful, List.append_nil]
    exact h.takeEmpties.skipped
  indices := h.indices
  index := h.index
  unskipped_late := h.takeEmpties.unskipped_late
  pending_late := fun _ _ _ hblank => absurd hblank List.not_mem_nil

theorem Accounted.blank (h : Accounted before startIndex seen building)
    (hblank : chunk.useful = false)
    (hafter : ∀ item ∈ seen, item.sequenceNumber < chunk.sequenceNumber) :
    Accounted before startIndex (seen ++ [chunk])
      { building with pendingEmpties := building.pendingEmpties ++ [chunk] } := by
  have hseen : ∀ number ∈ ownedNumbers building.windows ++ building.owned,
      number < chunk.sequenceNumber := by
    intro number hnumber
    have huseful : number ∈ usefulNumbers seen := by
      rw [← h.owned]
      exact List.mem_append_right _ hnumber
    obtain ⟨item, hitem, rfl⟩ := List.mem_map.mp huseful
    exact hafter item (List.mem_of_mem_filter hitem)
  constructor
  · rw [usefulNumbers_append, usefulNumbers_of_blank hblank, List.append_nil]
    exact h.owned
  · rw [blankNumbers_append, blankNumbers_of_blank hblank, ← h.skipped, Building.unskipped,
      Building.unskipped, List.map_append, List.map_singleton, List.append_assoc,
      List.append_assoc]
  · exact h.indices
  · exact h.index
  · intro number hnumber blank hmem
    rw [Building.unskipped, List.map_append, ← List.append_assoc] at hmem
    rcases List.mem_append.mp hmem with hold | hnew
    · exact h.unskipped_late number hnumber blank hold
    · rw [List.mem_singleton.mp hnew]
      exact hseen number (List.mem_append_left _ hnumber)
  · intro number hnumber blank hmem
    rcases List.mem_append.mp hmem with hold | hnew
    · exact h.pending_late number hnumber blank hold
    · rw [List.mem_singleton.mp hnew]
      exact hseen number (List.mem_append_right _ hnumber)

theorem Accounted.step (hunderWay : UnderWay seen building)
    (hafter : ∀ item ∈ seen, item.sequenceNumber < chunk.sequenceNumber)
    (h : Accounted before startIndex seen building) :
    Accounted before startIndex (seen ++ [chunk]) (building.step settings conversation chunk) := by
  cases huseful : chunk.useful with
  | false =>
    rw [step_of_blank settings conversation huseful]
    exact h.blank huseful hafter
  | true =>
    obtain ⟨text, tokens, heq⟩ := step_of_useful settings conversation huseful
    have hroom : Accounted before startIndex seen
        (building.makeRoom settings conversation chunk) := by
      unfold Building.makeRoom
      split
      · next reason hclosing =>
        exact h.flush hunderWay.useful (ownedExists_of_closing hclosing) reason false
      · exact h
    rw [heq]
    exact hroom.append (hunderWay.makeRoom settings conversation chunk) huseful hafter text tokens

theorem Accounted.finish (h : Accounted before startIndex seen building)
    (hunderWay : UnderWay seen building) (forceFinal : Bool) :
    Accounted before startIndex seen (building.finish settings conversation forceFinal) ∧
      (forceFinal = true → (building.finish settings conversation forceFinal).owned = []) := by
  unfold Building.finish
  split
  · next howned =>
    have htaken := h.takeEmpties
    have htaken' : ∀ chunk ∈ building.takeEmpties.current, chunk.useful = true :=
      hunderWay.useful
    dsimp only
    split
    · refine ⟨htaken.flush hunderWay.useful howned _ _, fun _ => ?_⟩
      exact owned_flush settings conversation htaken' howned _ _
    · next hforce =>
      have hnot : forceFinal ≠ true := by
        rintro rfl
        exact hforce rfl
      split
      · exact ⟨htaken.flush hunderWay.useful howned _ _, fun hforced => absurd hforced hnot⟩
      · exact ⟨htaken, fun hforced => absurd hforced hnot⟩
  · next hnone =>
    refine ⟨h, fun _ => ?_⟩
    by_contra hne
    exact hnone ((ownedExists_iff hunderWay.useful).mpr hne)

theorem length_filter_of_nodup_flatMap {windows : List BuiltWindow} {f : BuiltWindow → List Nat}
    (hnodup : (windows.flatMap f).Nodup) {number : Nat} (hmem : number ∈ windows.flatMap f) :
    (windows.filter fun window => number ∈ f window).length = 1 := by
  induction windows with
  | nil => exact absurd hmem List.not_mem_nil
  | cons window rest ih =>
    rw [List.flatMap_cons, List.nodup_append'] at hnodup
    obtain ⟨-, hrest, hdisjoint⟩ := hnodup
    rw [List.flatMap_cons] at hmem
    by_cases hfirst : number ∈ f window
    · have hnone : rest.filter (fun window => number ∈ f window) = [] := by
        refine List.filter_eq_nil_iff.mpr fun other hother hnumber => ?_
        exact hdisjoint hfirst (List.mem_flatMap.mpr ⟨other, hother, of_decide_eq_true hnumber⟩)
      rw [List.filter_cons_of_pos (by simpa using hfirst), hnone, List.length_singleton]
    · rw [List.filter_cons_of_neg (by simpa using hfirst)]
      exact ih hrest ((List.mem_append.mp hmem).resolve_left hfirst)

theorem accounted_buildReadyWindows (settings : Settings) (conversation : ConversationDocument)
    {chunks overlapPrefix : List Chunk}
    (hbelow : ∀ before ∈ overlapPrefix, ∀ chunk ∈ chunks,
      before.sequenceNumber < chunk.sequenceNumber)
    (startIndex : Nat) (forceFinal : Bool) (skippable : List Nat) :
    ∃ building : Building,
      buildReadyWindows settings conversation chunks startIndex forceFinal overlapPrefix skippable =
        building.windows ∧
      Accounted ((overlapOf overlapPrefix).map Chunk.sequenceNumber) startIndex
        (overlapOf overlapPrefix ++ reachableSemanticPrefix (ordered chunks) skippable) building ∧
      (forceFinal = true → building.owned = []) := by
  have huseful : ∀ chunk ∈ overlapOf overlapPrefix, chunk.useful = true :=
    fun chunk hmem => List.of_mem_filter hmem
  have hincreasing : Increasing (overlapOf overlapPrefix) :=
    (increasing_orderedUnique overlapPrefix).sublist List.filter_sublist
  have hstart := UnderWay.start settings huseful hincreasing startIndex
  unfold buildReadyWindows
  dsimp only
  split
  · next hnone =>
    have hdone := Accounted.start settings startIndex huseful
    refine ⟨Building.start settings (overlapOf overlapPrefix) startIndex, rfl, ?_, fun _ => ?_⟩
    · rw [hnone, List.append_nil]
      exact hdone
    · have howned := hdone.owned
      rw [usefulNumbers, List.filter_eq_self.mpr huseful] at howned
      exact (List.append_eq_nil_iff.mp (List.append_right_eq_self.mp howned)).2
  · obtain ⟨hunderWay, haccounted⟩ :=
      UnderWay.run settings conversation
        (fun hunderWay hafter hinv => Accounted.step hunderWay hafter hinv) hstart
        (Accounted.start settings startIndex huseful)
        (increasing_overlap_append_reachable hbelow skippable)
    obtain ⟨hfinish, hforced⟩ := haccounted.finish hunderWay forceFinal
    exact ⟨_, rfl, hfinish, hforced⟩

/-- With an overlap that comes before the chunks, the windows of a call own the reachable chunks
with a text in their order, each once: all of them where the last window is forced, and those of a
first part where it is not. The windows are numbered from the start index. They skip reachable
chunks without a text, no window one that another skips, and all of those that come before the last
chunk that is owned. -/
theorem windows_own_reachable (settings : Settings) (conversation : ConversationDocument)
    (chunks overlapPrefix : List Chunk) (startIndex : Nat) (forceFinal : Bool)
    (skippable : List Nat)
    (hbelow : ∀ before ∈ overlapPrefix, ∀ chunk ∈ chunks,
      before.sequenceNumber < chunk.sequenceNumber) :
    let windows := buildReadyWindows settings conversation chunks startIndex forceFinal
      overlapPrefix skippable
    let reachable := reachableSemanticPrefix (ordered chunks) skippable
    (usefulNumbers reachable).Pairwise (· < ·) ∧
      ownedNumbers windows <+: usefulNumbers reachable ∧
      (forceFinal = true → ownedNumbers windows = usefulNumbers reachable) ∧
      windows.map (·.window.windowIndex) = List.range' startIndex windows.length ∧
      (windows.map BuiltWindow.skippedSequenceNumbers).Pairwise List.Disjoint ∧
      (∀ window ∈ windows, ∀ number ∈ window.skippedSequenceNumbers,
        ∃ chunk ∈ reachable, chunk.useful = false ∧ chunk.sequenceNumber = number) ∧
      ∀ chunk ∈ reachable, chunk.useful = false →
        (∃ number ∈ ownedNumbers windows, chunk.sequenceNumber < number) →
        (windows.filter fun window =>
          chunk.sequenceNumber ∈ window.skippedSequenceNumbers).length = 1 := by
  intro windows reachable
  obtain ⟨building, hwindows, haccounted, hforced⟩ := accounted_buildReadyWindows settings
    conversation hbelow startIndex forceFinal skippable
  have hreachable : Increasing reachable := increasing_reachable _ _
  have howned : ownedNumbers windows ++ building.owned = usefulNumbers reachable := by
    have h := haccounted.owned
    rw [usefulNumbers_append, usefulNumbers, List.filter_eq_self.mpr fun chunk hmem =>
      List.of_mem_filter hmem] at h
    have hsame := List.append_cancel_left h
    rw [← hwindows] at hsame
    exact hsame
  have hskipped : skippedNumbers windows ++ building.unskipped = blankNumbers reachable := by
    have h := haccounted.skipped
    rw [blankNumbers_append, blankNumbers, List.filter_eq_nil_iff.mpr fun chunk hmem => by
      simp [List.of_mem_filter hmem], ← hwindows] at h
    exact h
  have hnodup : (skippedNumbers windows).Nodup := by
    have hblanks : (blankNumbers reachable).Nodup := hreachable.blankNumbers.imp Nat.ne_of_lt
    rw [← hskipped] at hblanks
    exact (List.nodup_append'.mp hblanks).1
  refine ⟨hreachable.usefulNumbers, ⟨_, howned⟩, ?_, ?_, ?_, ?_, ?_⟩
  · intro hforce
    rw [← howned, hforced hforce, List.append_nil]
  · have hindices := haccounted.indices
    rw [← hwindows] at hindices
    exact hindices
  · exact List.pairwise_map.mpr (List.nodup_flatMap.mp hnodup).2
  · intro window hwindow number hnumber
    have hmem : number ∈ blankNumbers reachable := by
      rw [← hskipped]
      exact List.mem_append_left _ (List.mem_flatMap.mpr ⟨window, hwindow, hnumber⟩)
    obtain ⟨chunk, hchunk, rfl⟩ := List.mem_map.mp hmem
    obtain ⟨hreached, hblank⟩ := List.mem_filter.mp hchunk
    exact ⟨chunk, hreached, by simpa using hblank, rfl⟩
  · rintro chunk hchunk hblank ⟨number, hnumber, hlt⟩
    have hmem : chunk.sequenceNumber ∈ skippedNumbers windows ++ building.unskipped := by
      rw [hskipped]
      exact List.mem_map_of_mem (List.mem_filter.mpr ⟨hchunk, by rw [hblank]; rfl⟩)
    rcases List.mem_append.mp hmem with hin | hlate
    · exact length_filter_of_nodup_flatMap hnodup hin
    · have hafter := haccounted.unskipped_late
      rw [← hwindows] at hafter
      exact absurd (hafter number hnumber _ hlate) (Nat.not_lt.mpr hlt.le)

theorem windows_own_reachable_sample :
    (∀ before ∈ [spoken 4 "and then we"], ∀ chunk ∈ [spoken 7 "met", spoken 6 "", spoken 5 "left"],
      before.sequenceNumber < chunk.sequenceNumber) ∧
      ownedNumbers (buildReadyWindows {} {}
        [spoken 7 "met", spoken 6 "", spoken 5 "left"] 3 true [spoken 4 "and then we"] []) =
          [5, 7] :=
  ⟨by decide, ((windows_own_reachable {} {} [spoken 7 "met", spoken 6 "", spoken 5 "left"]
    [spoken 4 "and then we"] 3 true [] (by decide)).2.2.1 rfl).trans (by decide +kernel)⟩

end AiBuddy.Conversation.Session
