import AiBuddy.MeetingPipeline.Proofs.Windows

/-!
# The windows cover the transcript

The invariant of the loop over the turns: a turn that was read is spoken in the windows made so
far, or it waits in the current window and is not of the overlap.
-/

namespace AiBuddy.MeetingPipeline

open Text

variable {encode : Option (String → Option Nat)} {host : EventPipeline.Host}
variable {conversationId : String} {sizes : WindowSizes}

theorem tailFrom_subset (tokenBudget : Nat) (tail turns : List TranscriptTurn) (total : Nat) :
    tailFrom encode tokenBudget tail total turns ⊆ turns ++ tail ∧
      (turns ++ tail ≠ [] → tailFrom encode tokenBudget tail total turns ≠ []) := by
  induction turns generalizing tail total with
  | nil => exact ⟨List.Subset.refl _, id⟩
  | cons turn earlier ih =>
    rw [tailFrom]
    split
    · refine ⟨?_, fun _ => List.cons_ne_nil _ _⟩
      intro item hitem
      rcases List.mem_cons.mp hitem with rfl | hitem
      · exact List.mem_cons_self
      · exact List.mem_append_right _ hitem
    · obtain ⟨hsubset, hne⟩ := ih (turn :: tail) (total + usefulTokenCount encode turn)
      refine ⟨fun item hitem => ?_, fun _ => hne (by simp)⟩
      have hmem := hsubset hitem
      simp only [List.mem_append, List.mem_cons] at hmem ⊢
      tauto

theorem tailForOverlap_subset (turns : List TranscriptTurn) (tokenBudget : Nat) :
    tailForOverlap encode turns tokenBudget ⊆ turns := by
  unfold tailForOverlap
  split
  · exact List.nil_subset _
  · intro item hitem
    have hmem := (tailFrom_subset tokenBudget [] turns.reverse 0).1 hitem
    simpa using hmem

theorem tailForOverlap_ne_nil {turns : List TranscriptTurn} {tokenBudget : Nat}
    (hturns : turns ≠ []) (hbudget : tokenBudget ≠ 0) :
    tailForOverlap encode turns tokenBudget ≠ [] := by
  rw [tailForOverlap, if_neg hbudget]
  exact (tailFrom_subset tokenBudget [] turns.reverse 0).2 (by simpa using hturns)

theorem tailForOverlap_of_zero (turns : List TranscriptTurn) {tokenBudget : Nat}
    (h : tokenBudget = 0) : tailForOverlap encode turns tokenBudget = [] := if_pos h

variable (encode host conversationId sizes) in
theorem flush_spec {state : WindowState} (huseful : ∀ turn ∈ state.current, turn.isUseful = true)
    (howned : state.ownedExists = true) :
    ∃ window, window.sequenceIds = state.current.map (·.sequenceId) ∧
      window.text = windowText state.current ∧
      flush encode host conversationId sizes state =
        { windows := state.windows ++ [window]
          overlap := tailForOverlap encode state.current sizes.overlapBudget
          current := tailForOverlap encode state.current sizes.overlapBudget
          currentTokens := tokenTotal encode
            (tailForOverlap encode state.current sizes.overlapBudget) } := by
  obtain ⟨turn, hturn, hnot⟩ := List.any_eq_true.mp howned
  have hfilter : state.current.filter (·.isUseful) = state.current :=
    List.filter_eq_self.mpr huseful
  unfold flush
  rw [hfilter]
  cases hcurrent : state.current with
  | nil =>
    rw [hcurrent] at hturn
    cases hturn
  | cons first rest =>
    have howns : ¬ ∀ item ∈ first :: rest, item.sequenceId ∈ state.overlapIds := by
      intro hall
      rw [← hcurrent] at hall
      exact (of_decide_eq_true hnot) (hall turn hturn)
    dsimp only
    rw [if_neg howns]
    exact ⟨_, rfl, rfl, rfl⟩

structure Covers (windows : List ExtractionWindow) (turn : TranscriptTurn) : Prop where
  words : (spokenWords turn.rawText).Sublist (windowWords windows)
  listed : turn.sequenceId ∈ windows.flatMap (·.sequenceIds)

def Waits (state : WindowState) (turn : TranscriptTurn) : Prop :=
  turn ∈ state.current ∧ turn.sequenceId ∉ state.overlapIds

/-- The state of the loop after the turns `done`. -/
structure Packed (sizes : WindowSizes) (done : List TranscriptTurn) (state : WindowState) :
    Prop where
  useful : ∀ turn ∈ state.current, turn.isUseful = true
  current : ∀ turn ∈ state.current, turn.sequenceId ∈ done.map (·.sequenceId)
  overlap : ∀ turn ∈ state.overlap, turn.sequenceId ∈ done.map (·.sequenceId)
  listed : ∀ id ∈ state.windows.flatMap (·.sequenceIds), id ∈ done.map (·.sequenceId)
  covered : ∀ turn ∈ done, Covers state.windows turn ∨ Waits state turn
  last : ∀ turn ∈ done.getLast?, Waits state turn ∨
    state.ownedExists = false ∧
      ∃ window ∈ state.windows.getLast?, turn.sequenceId ∈ window.sequenceIds
  noOverlap : sizes.overlapBudget = 0 → state.overlap = []
  started : sizes.overlapBudget ≠ 0 → state.current = [] → done = []

theorem windowWords_append (windows more : List ExtractionWindow) :
    windowWords (windows ++ more) = windowWords windows ++ windowWords more :=
  List.flatMap_append

variable {windows : List ExtractionWindow} {turn : TranscriptTurn}

theorem Covers.append (h : Covers windows turn) (more : List ExtractionWindow) :
    Covers (windows ++ more) turn := by
  refine ⟨?_, ?_⟩
  · rw [windowWords_append]
    exact h.words.trans (List.sublist_append_left _ _)
  · rw [List.flatMap_append]
    exact List.mem_append_left _ h.listed

theorem covers_of_text {window : ExtractionWindow} (hmem : window ∈ windows)
    (hwords : (spokenWords turn.rawText).Sublist (fields window.text))
    (hid : turn.sequenceId ∈ window.sequenceIds) : Covers windows turn := by
  obtain ⟨front, back, rfl⟩ := List.append_of_mem hmem
  refine ⟨?_, List.mem_flatMap.mpr ⟨window, hmem, hid⟩⟩
  rw [windowWords, List.flatMap_append, List.flatMap_cons]
  exact (hwords.trans (List.sublist_append_left _ _)).trans (List.sublist_append_right _ _)

theorem ownedExists_of_waits {state : WindowState} (h : Waits state turn) :
    state.ownedExists = true :=
  List.any_eq_true.mpr ⟨turn, h.1, decide_eq_true h.2⟩

variable (encode host conversationId) in
theorem Packed.flush {done : List TranscriptTurn} {state : WindowState}
    (h : Packed sizes done state) (howned : state.ownedExists = true) :
    Packed sizes done (flush encode host conversationId sizes state) ∧
      (∀ turn ∈ done, Covers (flush encode host conversationId sizes state).windows turn) ∧
      (flush encode host conversationId sizes state).ownedExists = false := by
  obtain ⟨window, hids, htext, heq⟩ :=
    flush_spec encode host conversationId sizes h.useful howned
  have htail : tailForOverlap encode state.current sizes.overlapBudget ⊆ state.current :=
    tailForOverlap_subset _ _
  have hcovered : ∀ turn ∈ done, Covers (state.windows ++ [window]) turn := by
    intro turn hturn
    rcases h.covered turn hturn with hcovers | ⟨hmem, -⟩
    · exact hcovers.append _
    · refine covers_of_text (List.mem_append_right _ (List.mem_singleton_self _)) ?_ ?_
      · rw [htext]
        exact spokenWords_sublist_windowText hmem (h.useful turn hmem)
      · rw [hids]
        exact List.mem_map_of_mem hmem
  have hnone : WindowState.ownedExists
      { windows := state.windows ++ [window]
        overlap := tailForOverlap encode state.current sizes.overlapBudget
        current := tailForOverlap encode state.current sizes.overlapBudget
        currentTokens := tokenTotal encode
          (tailForOverlap encode state.current sizes.overlapBudget) } = false := by
    rw [WindowState.ownedExists, List.any_eq_false]
    intro turn hturn hnot
    exact (of_decide_eq_true hnot) (List.mem_map_of_mem hturn)
  rw [heq]
  refine ⟨?_, hcovered, hnone⟩
  constructor
  · exact fun turn hturn => h.useful turn (htail hturn)
  · exact fun turn hturn => h.current turn (htail hturn)
  · exact fun turn hturn => h.current turn (htail hturn)
  · intro id hid
    rw [List.flatMap_append, List.flatMap_singleton, hids, List.mem_append] at hid
    rcases hid with hid | hid
    · exact h.listed id hid
    · obtain ⟨turn, hturn, rfl⟩ := List.mem_map.mp hid
      exact h.current turn hturn
  · exact fun turn hturn => .inl (hcovered turn hturn)
  · intro turn hturn
    refine .inr ⟨hnone, window, by simp, ?_⟩
    rcases h.last turn hturn with hwaits | ⟨hfalse, -⟩
    · rw [hids]
      exact List.mem_map_of_mem hwaits.1
    · rw [howned] at hfalse
      cases hfalse
  · exact fun hbudget => tailForOverlap_of_zero _ hbudget
  · intro hbudget hnil
    have hempty : state.current ≠ [] := by
      intro hcurrent
      rw [WindowState.ownedExists, hcurrent] at howned
      cases howned
    exact absurd hnil (tailForOverlap_ne_nil hempty hbudget)

theorem Packed.makeRoom {done : List TranscriptTurn} {state : WindowState}
    (h : Packed sizes done state) (tokens : Nat) :
    Packed sizes done (makeRoom encode host conversationId sizes state tokens) := by
  unfold AiBuddy.MeetingPipeline.makeRoom
  split
  next hroom => exact (h.flush encode host conversationId hroom.1).1
  next =>
    split
    next hroom => exact (h.flush encode host conversationId hroom.1).1
    next => exact h

theorem usefulTokenCount_ne_zero (h : turn.isUseful = true) : usefulTokenCount encode turn ≠ 0 := by
  have hraw : strip turn.rawText ≠ "" := by simpa [TranscriptTurn.isUseful] using h
  have hlines : linesOf turn.rawText ≠ [] := by
    intro hnil
    have hwords := flatMap_linesOf turn.rawText
    rw [hnil, List.flatMap_nil] at hwords
    exact wordsOf_ne_nil_of_strip hraw hwords.symm
  have hshown : strip (formatWindowLine turn) ≠ "" := by
    intro hblank
    have hwords : fields (formatWindowLine turn) = [] := by
      rw [fields_eq, wordsOf_eq_nil_of_strip hblank]
      rfl
    rw [formatWindowLine_eq hlines, fields_intercalate_newline] at hwords
    cases hcases : linesOf turn.rawText with
    | nil => exact hlines hcases
    | cons line rest =>
      obtain ⟨label, hlabel⟩ := fields_formatLine turn line
      rw [hcases, List.map_cons, List.flatMap_cons, hlabel] at hwords
      simp only [List.append_eq_nil_iff, List.map_eq_nil_iff] at hwords
      exact wordsOf_cons_ne_nil (by decide) label hwords.1.1
  rw [usefulTokenCount, if_neg hraw, estimateTokens, if_neg hshown]
  split
  next => omega
  next => omega

variable (host conversationId) in
theorem flushFragments_spec {fragments : List TranscriptTurn} {state : WindowState} {id : Int}
    (hbudget : sizes.overlapBudget = 0 ∨ fragments.length ≤ 1) (hne : fragments ≠ [])
    (huseful : ∀ fragment ∈ fragments, fragment.isUseful = true)
    (hid : ∀ fragment ∈ fragments, fragment.sequenceId = id) (hnew : id ∉ state.overlapIds) :
    ∃ windows overlap tokens, windows ≠ [] ∧ (∀ window ∈ windows, window.sequenceIds = [id]) ∧
      (fragments.flatMap fun fragment => spokenWords fragment.rawText).Sublist
        (windowWords windows) ∧
      overlap ⊆ fragments ∧ (sizes.overlapBudget = 0 → overlap = []) ∧
      (sizes.overlapBudget ≠ 0 → overlap ≠ []) ∧
      fragments.foldl (flushFragment encode host conversationId sizes) state =
        { windows := state.windows ++ windows, overlap, current := overlap
          currentTokens := tokens } := by
  induction fragments generalizing state with
  | nil => exact absurd rfl hne
  | cons fragment rest ih =>
    rw [List.forall_mem_cons] at huseful hid
    have howned : WindowState.ownedExists { state with
        current := [fragment], currentTokens := usefulTokenCount encode fragment } = true := by
      have hwaits : Waits { state with
          current := [fragment], currentTokens := usefulTokenCount encode fragment } fragment :=
        ⟨List.mem_singleton_self _, hid.1 ▸ hnew⟩
      exact ownedExists_of_waits hwaits
    have hall : ∀ turn ∈ [fragment], turn.isUseful = true := by simpa using huseful.1
    obtain ⟨window, hids, htext, hflush⟩ :=
      flush_spec encode host conversationId sizes hall howned
    have hwords : (spokenWords fragment.rawText).Sublist (fields window.text) := by
      rw [htext]
      exact spokenWords_sublist_windowText (List.mem_singleton_self _) huseful.1
    have hone : window.sequenceIds = [id] := by
      rw [hids, List.map_singleton, hid.1]
    rw [List.foldl_cons, flushFragment, hflush]
    by_cases hrest : rest = []
    · rw [hrest]
      refine ⟨[window], tailForOverlap encode [fragment] sizes.overlapBudget, _,
        List.cons_ne_nil _ _, by simpa using hone, ?_, tailForOverlap_subset _ _,
        fun hzero => tailForOverlap_of_zero _ hzero,
        fun hpos => tailForOverlap_ne_nil (List.cons_ne_nil _ _) hpos, rfl⟩
      rw [List.flatMap_singleton, windowWords, List.flatMap_singleton]
      exact hwords
    · -- More than one fragment, so there is no overlap.
      have hzero : sizes.overlapBudget = 0 := by
        refine hbudget.resolve_right ?_
        rw [List.length_cons, Nat.succ_le_iff, Nat.lt_one_iff, List.length_eq_zero_iff]
        exact hrest
      rw [tailForOverlap_of_zero _ hzero]
      have hfresh : id ∉ WindowState.overlapIds
          { windows := state.windows ++ [window], overlap := [], current := []
            currentTokens := tokenTotal encode [] } := List.not_mem_nil
      obtain ⟨windows, overlap, tokens, hwindows, hwindowIds, hcovers, hsubset, hempty, hnonempty,
        hfold⟩ := ih (.inl hzero) hrest huseful.2 hid.2 hfresh
      refine ⟨window :: windows, overlap, tokens, List.cons_ne_nil _ _,
        List.forall_mem_cons.mpr ⟨hone, hwindowIds⟩, ?_,
        List.Subset.trans hsubset (List.subset_cons_self _ _), hempty, hnonempty, ?_⟩
      · rw [List.flatMap_cons, windowWords, List.flatMap_cons]
        exact hwords.append hcovers
      · rw [hfold, List.append_assoc, List.singleton_append]

structure SplitsCleanly (encode : Option (String → Option Nat)) (sizes : WindowSizes)
    (turn : TranscriptTurn) : Prop where
  together : sizes.overlapBudget = 0 ∨ (splitOversizeTurn encode sizes.maximum turn).length ≤ 1
  labels : 1 < (fields turn.rawText).length → LabelsKept encode sizes.maximum turn

variable (encode) in
theorem splitOversizeTurn_spec (maxTokens : Nat) (huseful : turn.isUseful = true) :
    splitOversizeTurn encode maxTokens turn ≠ [] ∧
      ∀ fragment ∈ splitOversizeTurn encode maxTokens turn,
        fragment.isUseful = true ∧ fragment.sequenceId = turn.sequenceId := by
  unfold splitOversizeTurn
  dsimp only
  split
  · exact ⟨List.cons_ne_nil _ _, by simpa using huseful⟩
  next hlong =>
    obtain ⟨hflatten, hnonempty⟩ := chunkWords_spec encode maxTokens turn [] (fields turn.rawText)
    rw [List.nil_append] at hflatten
    refine ⟨?_, ?_⟩
    · intro hnil
      rw [List.map_eq_nil_iff.mp hnil] at hflatten
      rw [← hflatten] at hlong
      exact hlong (by simp)
    · intro fragment hfragment
      obtain ⟨chunk, hchunk, rfl⟩ := List.mem_map.mp hfragment
      refine ⟨?_, rfl⟩
      have hwords : Words (chunk.map String.toList) := by
        intro word hword
        obtain ⟨text, htext, rfl⟩ := List.mem_map.mp hword
        have hmem : text ∈ fields turn.rawText :=
          hflatten ▸ List.mem_flatten.mpr ⟨chunk, hchunk, htext⟩
        rw [fields_eq, List.mem_map] at hmem
        obtain ⟨chars, hchars, rfl⟩ := hmem
        rw [String.toList_ofList]
        exact mem_wordsOf hchars
      have hraw : strip (turn.ofWords chunk).rawText ≠ "" := by
        intro hblank
        have hnil := wordsOf_eq_nil_of_strip hblank
        rw [wordsOf_ofWords hwords] at hnil
        exact hnonempty chunk hchunk (List.map_eq_nil_iff.mp hnil)
      simpa [TranscriptTurn.isUseful] using hraw

theorem SplitsCleanly.words (h : SplitsCleanly encode sizes turn) :
    (spokenWords turn.rawText).Sublist
      ((splitOversizeTurn encode sizes.maximum turn).flatMap fun fragment =>
        spokenWords fragment.rawText) := by
  by_cases hlong : 1 < (fields turn.rawText).length
  · exact spokenWords_splitOversizeTurn hlong (h.labels hlong)
  · rw [splitOversizeTurn, if_pos (by omega), List.flatMap_singleton]

theorem Packed.addTurn {done : List TranscriptTurn} {state : WindowState}
    (h : Packed sizes done state) (huseful : turn.isUseful = true)
    (hnew : turn.sequenceId ∉ done.map (·.sequenceId))
    (hclean : sizes.maximum < usefulTokenCount encode turn → sizes.overlapBudget = 0 ∨ done = [] →
      SplitsCleanly encode sizes turn) :
    Packed sizes (done ++ [turn]) (addTurn encode host conversationId sizes state turn) := by
  have hroom : Packed sizes done (AiBuddy.MeetingPipeline.makeRoom encode host conversationId sizes
      state (usefulTokenCount encode turn)) := h.makeRoom _
  unfold AiBuddy.MeetingPipeline.addTurn
  dsimp only
  rw [if_neg (usefulTokenCount_ne_zero huseful)]
  generalize AiBuddy.MeetingPipeline.makeRoom encode host conversationId sizes state
    (usefulTokenCount encode turn) = room at hroom
  have hold : ∀ id ∈ done.map (·.sequenceId), id ∈ (done ++ [turn]).map (·.sequenceId) := by
    intro id hid
    rw [List.map_append]
    exact List.mem_append_left _ hid
  have hthis : turn.sequenceId ∈ (done ++ [turn]).map (·.sequenceId) :=
    List.mem_map_of_mem (List.mem_append_right _ (List.mem_singleton_self _))
  have hapart : turn.sequenceId ∉ room.overlapIds := by
    intro hmem
    obtain ⟨other, hother, heq⟩ := List.mem_map.mp hmem
    exact hnew (heq ▸ hroom.overlap other hother)
  split
  next hsplit =>
    have hdone : sizes.overlapBudget = 0 ∨ done = [] := by
      by_cases hzero : sizes.overlapBudget = 0
      · exact .inl hzero
      · exact .inr (hroom.started hzero hsplit.2)
    have hcuts := hclean hsplit.1 hdone
    obtain ⟨hne, hfragments⟩ :=
      splitOversizeTurn_spec encode sizes.maximum huseful
    obtain ⟨windows, overlap, tokens, hwindows, hids, hwords, hsubset, hempty, hnonempty, hfold⟩ :=
      flushFragments_spec host conversationId hcuts.together hne
        (fun fragment hmem => (hfragments fragment hmem).1)
        (fun fragment hmem => (hfragments fragment hmem).2) hapart
    have hcovers : Covers windows turn := by
      refine ⟨hcuts.words.trans hwords, ?_⟩
      obtain ⟨window, hwindow⟩ := List.exists_mem_of_ne_nil windows hwindows
      exact List.mem_flatMap.mpr ⟨window, hwindow, by rw [hids window hwindow]; simp⟩
    rw [hfold]
    constructor
    · exact fun item hitem => (hfragments item (hsubset hitem)).1
    · exact fun item hitem => (hfragments item (hsubset hitem)).2 ▸ hthis
    · exact fun item hitem => (hfragments item (hsubset hitem)).2 ▸ hthis
    · intro id hid
      rw [List.flatMap_append, List.mem_append] at hid
      rcases hid with hid | hid
      · exact hold id (hroom.listed id hid)
      · obtain ⟨window, hwindow, hmem⟩ := List.mem_flatMap.mp hid
        rw [hids window hwindow, List.mem_singleton] at hmem
        exact hmem ▸ hthis
    · intro item hitem
      left
      rcases List.mem_append.mp hitem with hitem | hitem
      · rcases hroom.covered item hitem with hcovered | hwaits
        · exact hcovered.append _
        · rw [Waits, hsplit.2] at hwaits
          cases hwaits.1
      · rw [List.mem_singleton.mp hitem]
        refine ⟨?_, ?_⟩
        · rw [windowWords_append]
          exact hcovers.words.trans (List.sublist_append_right _ _)
        · rw [List.flatMap_append]
          exact List.mem_append_right _ hcovers.listed
    · intro item hitem
      rw [List.getLast?_append, List.getLast?_singleton] at hitem
      cases hitem
      refine .inr ⟨?_, windows.getLast hwindows, ?_, ?_⟩
      · rw [WindowState.ownedExists, List.any_eq_false]
        intro other hother hnot
        exact (of_decide_eq_true hnot) (List.mem_map_of_mem hother)
      · rw [List.getLast?_append, List.getLast?_eq_some_getLast hwindows]
        rfl
      · rw [hids _ (List.getLast_mem hwindows)]
        exact List.mem_singleton_self _
    · exact hempty
    · exact fun hpos hnil => absurd hnil (hnonempty hpos)
  next =>
    have hwaits : Waits { room with
        current := room.current ++ [turn]
        currentTokens := room.currentTokens + usefulTokenCount encode turn } turn :=
      ⟨List.mem_append_right _ (List.mem_singleton_self _), hapart⟩
    constructor
    · intro item hitem
      rcases List.mem_append.mp hitem with hitem | hitem
      · exact hroom.useful item hitem
      · exact List.mem_singleton.mp hitem ▸ huseful
    · intro item hitem
      rcases List.mem_append.mp hitem with hitem | hitem
      · exact hold _ (hroom.current item hitem)
      · exact List.mem_singleton.mp hitem ▸ hthis
    · exact fun item hitem => hold _ (hroom.overlap item hitem)
    · exact fun id hid => hold id (hroom.listed id hid)
    · intro item hitem
      rcases List.mem_append.mp hitem with hitem | hitem
      · refine (hroom.covered item hitem).imp_right ?_
        rintro ⟨hmem, hnot⟩
        exact ⟨List.mem_append_left _ hmem, hnot⟩
      · exact .inr (List.mem_singleton.mp hitem ▸ hwaits)
    · intro item hitem
      rw [List.getLast?_append, List.getLast?_singleton] at hitem
      cases hitem
      exact .inl hwaits
    · exact hroom.noOverlap
    · intro _ hnil
      exact absurd hnil (by simp)

theorem Packed.foldl {done rest : List TranscriptTurn} {state : WindowState}
    (h : Packed sizes done state) (huseful : ∀ turn ∈ rest, turn.isUseful = true)
    (hids : ((done ++ rest).map (·.sequenceId)).Nodup)
    (hclean : ∀ turn ∈ rest, sizes.maximum < usefulTokenCount encode turn →
      sizes.overlapBudget = 0 ∨ (done ++ rest).head? = some turn →
        SplitsCleanly encode sizes turn) :
    Packed sizes (done ++ rest)
      (rest.foldl (AiBuddy.MeetingPipeline.addTurn encode host conversationId sizes) state) := by
  induction rest generalizing done state with
  | nil => simpa using h
  | cons turn rest ih =>
    rw [List.forall_mem_cons] at huseful
    have heq : done ++ turn :: rest = (done ++ [turn]) ++ rest := by simp
    have hnew : turn.sequenceId ∉ done.map (·.sequenceId) := by
      rw [List.map_append, List.nodup_append] at hids
      intro hmem
      exact hids.2.2 _ hmem _ List.mem_cons_self rfl
    have hstep : Packed sizes (done ++ [turn])
        (AiBuddy.MeetingPipeline.addTurn encode host conversationId sizes state turn) := by
      refine h.addTurn huseful.1 hnew fun hlong hdone => ?_
      refine hclean turn List.mem_cons_self hlong (hdone.imp_right ?_)
      rintro rfl
      rfl
    rw [heq] at hids hclean ⊢
    exact ih hstep huseful.2 hids fun other hother => hclean other (List.mem_cons_of_mem _ hother)

theorem packed_nil : Packed sizes [] {} :=
  ⟨by simp, by simp, by simp, by simp, by simp, by simp, fun _ => rfl, fun _ _ => rfl⟩

/-- The turn is cut into fragments: it is longer than a window, and the current window is empty
when it comes, since windows do not overlap or since it is the first. -/
def IsSplit (encode : Option (String → Option Nat)) (sizes : WindowSizes)
    (useful : List TranscriptTurn) (turn : TranscriptTurn) : Prop :=
  sizes.maximum < usefulTokenCount encode turn ∧
    (sizes.overlapBudget = 0 ∨ useful.head? = some turn)

variable (host conversationId) in
theorem packTurns_spec {useful : List TranscriptTurn}
    (huseful : ∀ turn ∈ useful, turn.isUseful = true)
    (hids : (useful.map (·.sequenceId)).Nodup)
    (hclean : ∀ turn ∈ useful, IsSplit encode sizes useful turn →
      SplitsCleanly encode sizes turn) :
    let windows := packTurns encode host conversationId sizes useful
    (∀ turn ∈ useful, Covers windows turn) ∧
      (∀ id ∈ windows.flatMap (·.sequenceIds), id ∈ useful.map (·.sequenceId)) ∧
      ∀ turn ∈ useful.getLast?,
        ∃ window ∈ windows.getLast?, turn.sequenceId ∈ window.sequenceIds := by
  have hpacked : Packed sizes useful
      (useful.foldl (AiBuddy.MeetingPipeline.addTurn encode host conversationId sizes) {}) :=
    packed_nil.foldl huseful hids fun turn hturn hlong hfirst =>
      hclean turn hturn ⟨hlong, hfirst⟩
  intro windows
  have hwindows : windows = packTurns encode host conversationId sizes useful := rfl
  unfold packTurns at hwindows
  dsimp only at hwindows
  generalize useful.foldl (AiBuddy.MeetingPipeline.addTurn encode host conversationId sizes) {} =
    state at hpacked hwindows
  cases howned : state.ownedExists with
  | true =>
    obtain ⟨turn, hturn, -⟩ := List.any_eq_true.mp howned
    have hany : state.current.any (·.isUseful) = true :=
      List.any_eq_true.mpr ⟨turn, hturn, hpacked.useful turn hturn⟩
    rw [howned, hany, if_pos ⟨rfl, rfl⟩] at hwindows
    obtain ⟨hflushed, hcovered, hnone⟩ := hpacked.flush encode host conversationId howned
    rw [hwindows]
    refine ⟨hcovered, hflushed.listed, fun last hlast => ?_⟩
    rcases hflushed.last last hlast with hwaits | ⟨-, hwindow⟩
    · rw [ownedExists_of_waits hwaits] at hnone
      cases hnone
    · exact hwindow
  | false =>
    rw [howned, if_neg (by simp)] at hwindows
    rw [hwindows]
    have hnone : ∀ turn, ¬ Waits state turn := by
      intro turn hwaits
      rw [ownedExists_of_waits hwaits] at howned
      cases howned
    exact ⟨fun turn hturn => (hpacked.covered turn hturn).resolve_right (hnone turn),
      hpacked.listed, fun turn hturn => ((hpacked.last turn hturn).resolve_left (hnone turn)).2⟩

theorem windowCoverageError_eq_none {useful : List Int} (hne : useful ≠ [])
    (hcovered : ∀ id ∈ useful, id ∈ windows.flatMap (·.sequenceIds))
    (hlisted : ∀ id ∈ windows.flatMap (·.sequenceIds), id ∈ useful)
    (hlast : ∀ id ∈ useful.getLast?, ∃ window ∈ windows.getLast?, id ∈ window.sequenceIds) :
    windowCoverageError windows useful = none := by
  unfold windowCoverageError
  rw [List.getLast?_eq_some_getLast hne]
  dsimp only
  have hmissing : useful.filter (· ∉ windows.flatMap (·.sequenceIds)) = [] := by
    simpa [List.filter_eq_nil_iff] using hcovered
  have hextra : (windows.flatMap (·.sequenceIds)).eraseDups.filter (· ∉ useful) = [] := by
    rw [List.filter_eq_nil_iff]
    intro id hid
    have hmem := hlisted id (List.mem_eraseDups.mp hid)
    simp [hmem]
  obtain ⟨window, hwindow, hmem⟩ := hlast _ (List.getLast?_eq_some_getLast hne)
  rw [hmissing, hextra, if_neg (by simp), if_neg]
  rw [Option.mem_def.mp hwindow]
  exact fun hnot => hnot hmem

theorem mem_usefulTurns {turns : List TranscriptTurn} :
    turn ∈ usefulTurns turns ↔ turn ∈ turns ∧ turn.isUseful = true := by
  rw [usefulTurns, List.mem_filter, List.mem_insertionSort]

def plainHost : EventPipeline.Host := ⟨id, rfl, Char.isAlphanum, id, fun _ _ => 0⟩

def longTurn : TranscriptTurn := { sequenceId := 1, rawText := "alpha beta" }

end AiBuddy.MeetingPipeline
