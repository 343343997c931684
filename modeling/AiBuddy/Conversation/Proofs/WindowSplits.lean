import AiBuddy.Conversation.Proofs.WindowReads
import AiBuddy.Conversation.Proofs.WindowResumes

/-!
# Windows over chunks that arrive in batches

`close_ready_windows` calls `build_ready_windows` whenever chunks arrived, over those after the
last window, and reloads the overlap that this window hands on. The windows are those of one call
over all chunks as long as a chunk that closes a window is counted after the overlap as it was
before.
-/

namespace AiBuddy.Conversation.Session

/-- The chunks after the last window, `incremental.py:85`. -/
def notYetOwned (windows : List BuiltWindow) (arrived : List Chunk) : List Chunk :=
  match windows.getLast? with
  | some last => arrived.filter fun chunk => last.window.sequenceEnd < chunk.sequenceNumber
  | none => arrived

/-- The chunks with a text in the overlap of the last window, `incremental.py:172`. -/
def reloadedOverlap (windows : List BuiltWindow) (arrived : List Chunk) : List Chunk :=
  match windows.getLast? with
  | some last =>
    match last.window.overlapSequenceStart with
    | some sequenceStart =>
      arrived.filter fun chunk =>
        sequenceStart ≤ chunk.sequenceNumber && chunk.sequenceNumber ≤ last.window.sequenceEnd &&
          chunk.useful
    | none => []
  | none => []

def newWindows (settings : Settings) (conversation : ConversationDocument) (skippable : List Nat)
    (forceFinal : Bool) (arrived : List Chunk) (windows : List BuiltWindow) : List BuiltWindow :=
  buildReadyWindows settings conversation (notYetOwned windows arrived) windows.length forceFinal
    (reloadedOverlap windows arrived) skippable

structure Arrivals where
  arrived : List Chunk := []
  windows : List BuiltWindow := []

def Arrivals.receive (settings : Settings) (conversation : ConversationDocument)
    (skippable : List Nat) (arrivals : Arrivals) (batch : List Chunk) : Arrivals where
  arrived := arrivals.arrived ++ batch
  windows := arrivals.windows ++
    newWindows settings conversation skippable false (arrivals.arrived ++ batch) arrivals.windows

def windowsOfBatches (settings : Settings) (conversation : ConversationDocument)
    (skippable : List Nat) (batches : List (List Chunk)) : List BuiltWindow :=
  let received := batches.foldl (Arrivals.receive settings conversation skippable) {}
  received.windows ++
    newWindows settings conversation skippable true received.arrived received.windows

variable {settings : Settings} {conversation : ConversationDocument}

variable {skippable : List Nat}

theorem buildReadyWindows_eq {chunks overlapPrefix read tail : List Chunk}
    (hread : ordered chunks = read) (htail : overlapOf overlapPrefix = tail)
    (hincreasing : Increasing read) (hunbroken : Unbroken skippable read) {startIndex : Nat}
    {forceFinal : Bool} :
    buildReadyWindows settings conversation chunks startIndex forceFinal overlapPrefix skippable =
      ((read.foldl (Building.step settings conversation)
        (Building.start settings tail startIndex)).finish settings conversation
          forceFinal).windows := by
  have huseful : ∀ chunk ∈ tail, chunk.useful = true := by
    rw [← htail]
    exact fun chunk hmem => List.of_mem_filter hmem
  rw [buildReadyWindows, ← overlapOf, htail, hread, reachable_of_unbroken hincreasing hunbroken]
  dsimp only
  split
  · next hnone =>
    rw [hnone, List.foldl_nil, Building.finish, ownedExists_start settings huseful,
      if_neg Bool.false_ne_true]
    rfl
  · rfl

section Reading

variable {front rest arrived : List Chunk} {closed : Building} {windows : List BuiltWindow}
  {last : BuiltWindow}

variable (settings) in
theorem exists_last_read (hread : ReadUp front closed) (hunderWay : UnderWay front closed)
    (howned : closed.ownedExists = true) :
    ∃ before final, front = before ++ [final] ++ closed.pendingEmpties ∧
      (closed.shown settings false).outcome.sequenceEnd = final.sequenceNumber ∧
      ∀ chunk ∈ closed.current, chunk.sequenceNumber ≤ final.sequenceNumber := by
  obtain ⟨used, hfront, hlast⟩ := hread.used
  have hne := current_ne_nil ((ownedExists_iff hunderWay.useful).mp howned)
  obtain ⟨some, final, hcurrent⟩ := (List.eq_nil_or_concat' closed.current).resolve_left hne
  rw [hcurrent, List.getLast?_concat] at hlast
  obtain ⟨before, hused⟩ := List.getLast?_eq_some_iff.mp hlast
  have hend : (closed.current.map Chunk.sequenceNumber).getLastD 0 = final.sequenceNumber := by
    rw [hcurrent, List.map_append, List.map_singleton, List.getLastD_concat]
  refine ⟨before, final, by rw [hfront, hused], ?_, fun chunk hmem => ?_⟩
  · rw [Building.shown, List.filter_eq_self.mpr hunderWay.useful]
    exact hend
  · rw [← hend]
    exact hunderWay.increasing.le_getLastD hmem

theorem ordered_notYetOwned (hread : ReadUp front closed) (hunderWay : UnderWay front closed)
    (howned : closed.ownedExists = true) (hincreasing : Increasing (front ++ rest))
    (harrived : ordered arrived = front ++ rest)
    (hdistinct : (arrived.map Chunk.sequenceNumber).Nodup)
    (hlast : windows.getLast? = some last)
    (hshown : last.shown = closed.shown settings false) :
    ordered (notYetOwned windows arrived) = closed.pendingEmpties ++ rest := by
  obtain ⟨before, final, hfront, hend, -⟩ := exists_last_read settings hread hunderWay
    howned
  have hsequenceEnd : last.window.sequenceEnd = final.sequenceNumber := by
    rw [← hend, ← hshown]
    rfl
  have hmem : ∀ chunk, chunk ∈ arrived ↔
      chunk ∈ before ++ [final] ∨ chunk ∈ closed.pendingEmpties ++ rest := by
    intro chunk
    rw [← List.mem_append, ← List.append_assoc, ← hfront, ← harrived, ordered, Keyed.mem_sort]
  rw [hfront, List.append_assoc] at hincreasing
  obtain ⟨hbefore, hafter, hsplit⟩ := List.pairwise_append.mp hincreasing
  have hfinal : final ∈ before ++ [final] := List.mem_append_right _ List.mem_cons_self
  rw [notYetOwned, hlast]
  refine ordered_eq_of_mem_iff
    (hdistinct.sublist (List.filter_sublist.map _)) hafter fun chunk => ?_
  dsimp only
  rw [List.mem_filter, hmem, decide_eq_true_eq, hsequenceEnd]
  constructor
  · rintro ⟨hold | hnew, hlt⟩
    · have hle : chunk.sequenceNumber ≤ final.sequenceNumber := by
        rcases List.mem_append.mp hold with hmem | hmem
        · exact ((List.pairwise_append.mp hbefore).2.2 chunk hmem final List.mem_cons_self).le
        · rw [List.mem_singleton.mp hmem]
      omega
    · exact hnew
  · exact fun hnew => ⟨.inr hnew, hsplit final hfinal chunk hnew⟩

theorem overlapOf_reloadedOverlap (hread : ReadUp front closed) (hunderWay : UnderWay front closed)
    (howned : closed.ownedExists = true) (hincreasing : Increasing (front ++ rest))
    (harrived : ordered arrived = front ++ rest)
    (hdistinct : (arrived.map Chunk.sequenceNumber).Nodup)
    (hlast : windows.getLast? = some last)
    (hshown : last.shown = closed.shown settings false) :
    overlapOf (reloadedOverlap windows arrived) = closed.handedOn settings false := by
  obtain ⟨before, final, hfront, hend, hle_final⟩ := exists_last_read settings hread hunderWay
    howned
  have hfinal : final ∈ front := by
    rw [hfront]
    exact List.mem_append_left _ (List.mem_append_right _ List.mem_cons_self)
  have hmem : ∀ chunk, chunk ∈ arrived ↔ chunk ∈ front ∨ chunk ∈ rest := by
    intro chunk
    rw [← List.mem_append, ← harrived, ordered, Keyed.mem_sort]
  have hsequenceEnd : last.window.sequenceEnd = final.sequenceNumber := by
    rw [← hend, ← hshown]
    rfl
  have hoverlap : last.window.overlapSequenceStart =
      (closed.handedOn settings false).head?.map Chunk.sequenceNumber := by
    change last.shown.overlapSequenceStart = _
    rw [hshown]
    rfl
  have hsuffix := handedOn_suffix settings hunderWay.useful false
  have hincreasingTail : Increasing (closed.handedOn settings false) :=
    hunderWay.increasing.sublist hsuffix.sublist
  rw [reloadedOverlap, hlast]
  dsimp only
  rw [hoverlap]
  cases htail : closed.handedOn settings false with
  | nil => rfl
  | cons first more =>
    rw [htail] at hsuffix hincreasingTail
    rw [List.head?_cons, Option.map_some]
    dsimp only
    generalize hreloaded : (arrived.filter fun chunk =>
      first.sequenceNumber ≤ chunk.sequenceNumber &&
        chunk.sequenceNumber ≤ last.window.sequenceEnd && chunk.useful) = reloaded
    have hnodup : (reloaded.map Chunk.sequenceNumber).Nodup := by
      rw [← hreloaded]
      exact hdistinct.sublist (List.filter_sublist.map _)
    have hordered := increasing_ordered hnodup
    rw [overlapOf, orderedUnique,
      uniqueFrom_of_increasing hordered fun _ _ hseen => absurd hseen List.not_mem_nil]
    refine (hordered.sublist List.filter_sublist).eq_of_mem_iff hincreasingTail fun chunk => ?_
    rw [List.mem_filter, ordered, Keyed.mem_sort, ← hreloaded, List.mem_filter, hmem,
      Bool.and_eq_true_iff, Bool.and_eq_true_iff, decide_eq_true_eq, decide_eq_true_eq,
      hsequenceEnd]
    obtain ⟨earlier, hearlier⟩ := hsuffix.trans hread.suffix
    constructor
    · rintro ⟨⟨hold | hnew, ⟨hge, hle⟩, huseful⟩, -⟩
      · have hkept : chunk ∈ earlier ++ first :: more := by
          rw [hearlier]
          exact List.mem_filter.mpr ⟨hold, huseful⟩
        rcases List.mem_append.mp hkept with hbefore | htail
        · have hfrontUseful : Increasing (earlier ++ first :: more) := by
            rw [hearlier]
            exact (hincreasing.sublist (List.sublist_append_left _ _)).sublist List.filter_sublist
          have hlt := (List.pairwise_append.mp hfrontUseful).2.2 chunk hbefore first
            List.mem_cons_self
          omega
        · exact htail
      · have hlt := (List.pairwise_append.mp hincreasing).2.2 final hfinal chunk hnew
        omega
    · intro htail
      have hkept : chunk ∈ front.filter Chunk.useful := by
        rw [← hearlier]
        exact List.mem_append_right _ htail
      obtain ⟨hold, huseful⟩ := List.mem_filter.mp hkept
      have hge : first.sequenceNumber ≤ chunk.sequenceNumber := by
        rcases List.mem_cons.mp htail with rfl | hlater
        · exact Nat.le_refl _
        · exact ((List.pairwise_cons.mp hincreasingTail).1 chunk hlater).le
      exact ⟨⟨.inl hold, ⟨hge, hle_final chunk (hsuffix.subset htail)⟩, huseful⟩, huseful⟩

end Reading

theorem map_shown_outcome {windows : List BuiltWindow} :
    (windows.map BuiltWindow.shown).map Shown.outcome = windows.map BuiltWindow.outcome := by
  rw [List.map_map]
  rfl

theorem newWindows_spec (hsparse : settings.sparseWindowMaxWallClockMs = 0) {arrived : List Chunk}
    {windows : List BuiltWindow} (hdistinct : (arrived.map Chunk.sequenceNumber).Nodup)
    (hunbroken : Unbroken skippable (ordered arrived))
    (hcounted : CountedAgain settings conversation (Building.start settings [] 0) (ordered arrived))
    (hclosed : LastClosed settings conversation (ordered arrived) (windows.map BuiltWindow.shown))
    (forceFinal : Bool) :
    (forceFinal = false →
      (windowsOver settings conversation (ordered arrived) forceFinal).map BuiltWindow.shown =
        (windows ++ newWindows settings conversation skippable forceFinal arrived
          windows).map BuiltWindow.shown) ∧
    (windowsOver settings conversation (ordered arrived) forceFinal).map BuiltWindow.outcome =
      (windows ++ newWindows settings conversation skippable forceFinal arrived
        windows).map BuiltWindow.outcome := by
  have hincreasing := increasing_ordered hdistinct
  rw [← map_shown_outcome, ← map_shown_outcome]
  rcases hclosed with hnone | ⟨front, rest, hsplit, howned, hwindows, hnext⟩
  · -- Nothing is closed yet: the call reads all that arrived.
    obtain rfl := List.map_eq_nil_iff.mp hnone
    have hnew : newWindows settings conversation skippable forceFinal arrived [] =
        windowsOver settings conversation (ordered arrived) forceFinal :=
      buildReadyWindows_eq rfl rfl hincreasing hunbroken
    rw [hnew, List.nil_append]
    exact ⟨fun _ => rfl, rfl⟩
  · obtain ⟨earlier, last, rfl⟩ := (List.eq_nil_or_concat' windows).resolve_left <| by
      rintro rfl
      exact absurd hwindows (by simp)
    rw [List.map_append, List.map_singleton] at hwindows
    obtain ⟨hearlier, hshown⟩ := List.append_inj' hwindows rfl
    rw [hsplit] at hincreasing hunbroken hcounted ⊢
    obtain ⟨hunderWay, hread⟩ := @underWay_loop settings conversation front
      (hincreasing.sublist (List.sublist_append_left _ _))
    have hresumed := resumed_windows hsparse hincreasing hcounted rfl howned hnext
      (earlier ++ [last]).length forceFinal
    generalize loop settings conversation front = closed at *
    obtain ⟨before, final, hfront, -, -⟩ := exists_last_read settings hread hunderWay howned
    have hlast : (earlier ++ [last]).getLast? = some last := List.getLast?_concat
    have hshown := List.singleton_inj.mp hshown
    have hrest : before ++ [final] ++ (closed.pendingEmpties ++ rest) = front ++ rest := by
      rw [hfront, List.append_assoc _ closed.pendingEmpties]
    rw [← hrest] at hincreasing hunbroken
    have hnew : newWindows settings conversation skippable forceFinal arrived
        (earlier ++ [last]) = resumed settings conversation closed (earlier ++ [last]).length
          (closed.pendingEmpties ++ rest) forceFinal := by
      have hincreasing' := hincreasing
      rw [hrest] at hincreasing'
      exact buildReadyWindows_eq
        (ordered_notYetOwned hread hunderWay howned hincreasing' hsplit hdistinct hlast hshown)
        (overlapOf_reloadedOverlap hread hunderWay howned hincreasing' hsplit hdistinct hlast
          hshown)
        (hincreasing.sublist (List.sublist_append_right _ _)) (hunbroken.back hincreasing)
    rw [hnew, List.map_append, List.map_append, List.map_singleton, hearlier, hshown]
    exact hresumed

theorem ordered_append {front rest : List Chunk}
    (h : Increasing (ordered front ++ ordered rest)) :
    ((front ++ rest).map Chunk.sequenceNumber).Nodup ∧
      ordered (front ++ rest) = ordered front ++ ordered rest := by
  have hperm : (ordered front ++ ordered rest).Perm (front ++ rest) :=
    (Keyed.perm_sort front).append (Keyed.perm_sort rest)
  have hnodup : ((front ++ rest).map Chunk.sequenceNumber).Nodup :=
    (List.Perm.nodup_iff (hperm.map _)).mp (h.map_sequenceNumber.imp Nat.ne_of_lt)
  exact ⟨hnodup, ordered_eq_of_mem_iff hnodup h fun chunk => hperm.mem_iff.symm⟩

variable (settings conversation) in
theorem received_spec (hsparse : settings.sparseWindowMaxWallClockMs = 0)
    (batches : List (List Chunk)) (hincreasing : Increasing (batches.map ordered).flatten)
    (hunbroken : Unbroken skippable (batches.map ordered).flatten)
    (hcounted : CountedAgain settings conversation (Building.start settings [] 0)
      (batches.map ordered).flatten) :
    let received := batches.foldl (Arrivals.receive settings conversation skippable) {}
    received.arrived = batches.flatten ∧
    (batches.flatten.map Chunk.sequenceNumber).Nodup ∧
    ordered batches.flatten = (batches.map ordered).flatten ∧
    received.windows.map BuiltWindow.shown =
      (windowsOver settings conversation (batches.map ordered).flatten false).map
        BuiltWindow.shown := by
  induction batches using List.reverseRecOn with
  | nil =>
    refine ⟨rfl, .nil, rfl, ?_⟩
    have hstart := ownedExists_start settings (fun _ hmem => absurd hmem List.not_mem_nil) 0
    change [] = ((Building.start settings [] 0).finish settings conversation false).windows.map
      BuiltWindow.shown
    rw [Building.finish, hstart, if_neg Bool.false_ne_true]
    rfl
  | append_singleton batches batch ih =>
    have hflatten : ((batches ++ [batch]).map ordered).flatten =
        (batches.map ordered).flatten ++ ordered batch := by
      rw [List.map_append, List.flatten_append, List.map_singleton, List.flatten_singleton]
    have hall : (batches ++ [batch]).flatten = batches.flatten ++ batch := by
      rw [List.flatten_append, List.flatten_singleton]
    rw [hflatten] at hincreasing hunbroken hcounted ⊢
    have hfront := hincreasing.sublist (List.sublist_append_left _ _)
    obtain ⟨harrived, -, hordered, hwindows⟩ := ih hfront (hunbroken.front hincreasing)
      hcounted.of_append.1
    have hclosed := lastClosed_windowsOver conversation hsparse hfront
    rw [← hordered] at hincreasing
    obtain ⟨hnodup, hsorted⟩ := ordered_append hincreasing
    rw [hordered] at hsorted
    rw [← hwindows] at hclosed
    rw [hall, List.foldl_append, List.foldl_cons, List.foldl_nil]
    generalize batches.foldl (Arrivals.receive settings conversation skippable) {} = received
      at harrived hclosed ⊢
    rw [← hsorted] at hunbroken hcounted
    have hclosed := hclosed.append (ordered batch)
    rw [← hsorted] at hclosed
    have hnew := (newWindows_spec hsparse hnodup hunbroken hcounted hclosed false).1 rfl
    refine ⟨?_, hnodup, hsorted, ?_⟩
    · rw [Arrivals.receive, harrived]
    · rw [← hsorted, hnew, Arrivals.receive, harrived]

/-- Where no window is closed by the wall clock, chunks that arrive in order and without a hole make
the same windows in any batches as all at once, in every run in which a chunk that comes when a
window is closed is counted with the text that it has after the chunks which the window hands
on. -/
theorem windows_of_batches (settings : Settings) (conversation : ConversationDocument)
    (skippable : List Nat) (batches : List (List Chunk))
    (hsparse : settings.sparseWindowMaxWallClockMs = 0)
    (hincreasing : Increasing (batches.map ordered).flatten)
    (hunbroken : Unbroken skippable (batches.map ordered).flatten)
    (hcounted : CountedAgain settings conversation (Building.start settings [] 0)
      (batches.map ordered).flatten) :
    (windowsOfBatches settings conversation skippable batches).map BuiltWindow.outcome =
      (windowsOfBatches settings conversation skippable [batches.flatten]).map
        BuiltWindow.outcome := by
  have hover : ∀ batches : List (List Chunk), Increasing (batches.map ordered).flatten →
      Unbroken skippable (batches.map ordered).flatten →
      CountedAgain settings conversation (Building.start settings [] 0)
        (batches.map ordered).flatten →
      (windowsOfBatches settings conversation skippable batches).map BuiltWindow.outcome =
        (windowsOver settings conversation (ordered batches.flatten) true).map
          BuiltWindow.outcome ∧
      ordered batches.flatten = (batches.map ordered).flatten := by
    intro batches hincreasing hunbroken hcounted
    obtain ⟨harrived, hnodup, hordered, hwindows⟩ :=
      received_spec settings conversation hsparse batches hincreasing hunbroken hcounted
    have hclosed := lastClosed_windowsOver conversation hsparse hincreasing
    rw [← hordered] at hunbroken hcounted hclosed hwindows
    rw [← hwindows] at hclosed
    have hforced := (newWindows_spec hsparse hnodup hunbroken hcounted hclosed true).2
    rw [hforced, windowsOfBatches, harrived]
    exact ⟨rfl, hordered⟩
  obtain ⟨hsplit, hordered⟩ := hover batches hincreasing hunbroken hcounted
  have hone : (([batches.flatten] : List (List Chunk)).map ordered).flatten =
      (batches.map ordered).flatten := by
    rw [List.map_singleton, List.flatten_singleton, hordered]
  have hwhole := hover [batches.flatten] (by rw [hone]; exact hincreasing)
    (by rw [hone]; exact hunbroken) (by rw [hone]; exact hcounted)
  rw [hsplit, hwhole.1, List.flatten_singleton]

theorem windows_of_batches_sample :
    (windowsOfBatches {} {} [] [[spoken 0 "we left"], [spoken 1 "and then"]]).map
        BuiltWindow.outcome =
      (windowsOfBatches {} {} [] [[spoken 0 "we left", spoken 1 "and then"]]).map
        BuiltWindow.outcome := by
  refine windows_of_batches {} {} [] [[spoken 0 "we left"], [spoken 1 "and then"]] rfl ?_ ?_ ?_
  · exact .cons (by decide) (.cons (fun _ h => absurd h List.not_mem_nil) .nil)
  · intro first hfirst last hlast number hafter hbefore
    have hle : ∀ chunk ∈ ([[spoken 0 "we left"], [spoken 1 "and then"]].map ordered).flatten,
        chunk.sequenceNumber ≤ 1 := by decide
    have := hle last hlast
    omega
  · refine ⟨by decide +kernel, by decide +kernel, trivial⟩

def withoutOverlap : Settings :=
  { incrementalWindowTargetTokens := 12
    incrementalWindowOverlapTokens := 0
    overlapRatioTokens := 0 }

def firstChunk : Chunk := { spoken 0 "tomorrow" with endTimeMs := some 2400000 }

def secondChunk : Chunk :=
  { spoken 1 "tomorrowzzzzzzzzzzzzzzzzzzzz" with endTimeMs := some 2400000 }

def thirdChunk : Chunk := spoken 2 "yyyyyyyyyyyyyyyyyyyy"

/-- All at once, the second chunk is counted without its first word, and the third fits. Where the
third arrives alone, the second was counted again with that word. -/
theorem late_chunk_elsewhere :
    withoutOverlap.sparseWindowMaxWallClockMs = 0 ∧
      (windowsOfBatches withoutOverlap {} [] [[firstChunk, secondChunk], [thirdChunk]]).map
          BuiltWindow.outcome ≠
        (windowsOfBatches withoutOverlap {} [] [[firstChunk, secondChunk, thirdChunk]]).map
          BuiltWindow.outcome := by
  have hbatches : (windowsOfBatches withoutOverlap {} []
      [[firstChunk, secondChunk], [thirdChunk]]).map (·.ownedSequenceNumbers) =
        [[0], [1], [2]] := by decide +kernel
  have honce : (windowsOfBatches withoutOverlap {} []
      [[firstChunk, secondChunk, thirdChunk]]).map (·.ownedSequenceNumbers) = [[0], [1, 2]] := by
    decide +kernel
  refine ⟨rfl, fun hsame => ?_⟩
  have howned := congrArg (List.map Outcome.owned) hsame
  rw [List.map_map, List.map_map] at howned
  exact absurd (hbatches.symm.trans (howned.trans honce)) (by decide)

end AiBuddy.Conversation.Session
