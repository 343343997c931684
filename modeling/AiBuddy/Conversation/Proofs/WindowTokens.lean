import AiBuddy.Conversation.Proofs.TranscriptLines

/-!
# The counter of a window and the tokens of its text

The loop counts a window line by line, each line with the overlap to the text counted before it
removed. The text of a closed window is made again from its chunks and joined. The counter stays at
the target as soon as a window owns two chunks; the text may have more tokens, by its line breaks
and by what the counting took for an overlap.
-/

namespace AiBuddy.Conversation.Session

open SemanticInput

variable {settings : Settings}

theorem estimateTokens_eq (hencode : ∀ text, settings.encode text = none) (text : String) :
    settings.estimateTokens text =
      if Text.wordsOf text.toList = [] then 0
      else max (Text.wordsOf text.toList).length ((text.toList.length + 3) / 4) := by
  have hblank : Text.strip text = "" ↔ Text.wordsOf text.toList = [] := by
    rw [← Text.wordsOf_strip, ← String.toList_eq_nil_iff, Text.toList_strip]
    refine ⟨fun h => by rw [h]; rfl, fun h => ?_⟩
    by_contra hne
    exact wordsOf_ne_nil (Text.trimmed_trim _) hne h
  unfold Settings.estimateTokens
  rw [hencode]
  by_cases hwords : Text.wordsOf text.toList = []
  · rw [if_pos (hblank.mpr hwords), if_pos hwords]
  · have hne : text.toList ≠ [] := by
      intro hnil
      rw [hnil] at hwords
      exact hwords rfl
    have hpos := List.length_pos_iff.mpr hne
    rw [if_neg fun h => hwords (hblank.mp h), if_neg hwords, Text.fields_eq, List.length_map]
    dsimp only
    omega

variable {text : String}

theorem le_estimateTokens (hencode : ∀ text, settings.encode text = none)
    (hwords : Text.wordsOf text.toList ≠ []) :
    (Text.wordsOf text.toList).length ≤ settings.estimateTokens text ∧
      text.toList.length ≤ 4 * settings.estimateTokens text := by
  rw [estimateTokens_eq hencode, if_neg hwords]
  omega

theorem wordsOf_intercalate_newline (lines : List String) :
    (Text.wordsOf ("\n".intercalate lines).toList).length =
      (lines.map fun line => (Text.wordsOf line.toList).length).sum := by
  have hfields := congrArg List.length (Text.fields_intercalate_newline lines)
  rw [Text.fields_eq, List.length_map] at hfields
  rw [hfields, List.length_flatMap]
  refine congrArg List.sum (List.map_congr_left fun line _ => ?_)
  rw [Text.fields_eq, List.length_map]

theorem length_intercalate_newline (line : String) (rest : List String) :
    ("\n".intercalate (line :: rest)).toList.length =
      line.toList.length + (rest.map fun line => line.toList.length + 1).sum := by
  induction rest generalizing line with
  | nil =>
    rw [String.intercalate_singleton]
    rfl
  | cons next more ih =>
    rw [String.intercalate_cons_cons, String.toList_append, String.toList_append,
      List.length_append, List.length_append, ih, List.map_cons, List.sum_cons]
    change line.toList.length + 1 + _ = _
    omega

theorem length_intercalate_append_le (front back : List String) :
    ("\n".intercalate (front ++ back)).toList.length ≤
      ("\n".intercalate front).toList.length +
        (back.map fun line => line.toList.length + 1).sum := by
  cases front with
  | cons first rest =>
    rw [List.cons_append, length_intercalate_newline, length_intercalate_newline,
      List.map_append, List.sum_append]
    omega
  | nil =>
    rw [List.nil_append]
    cases back with
    | nil => exact Nat.le_add_right _ _
    | cons first rest =>
      rw [length_intercalate_newline, List.map_cons, List.sum_cons]
      omega

theorem estimateTokens_intercalate_append_le (hencode : ∀ text, settings.encode text = none)
    {front back : List String} (hfront : ∀ line ∈ front, Text.wordsOf line.toList ≠ [])
    (hback : ∀ line ∈ back, Text.wordsOf line.toList ≠ []) :
    settings.estimateTokens ("\n".intercalate (front ++ back)) ≤
      settings.estimateTokens ("\n".intercalate front) +
        (back.map settings.estimateTokens).sum + (back.length + 3) / 4 := by
  have hcounts : (back.map fun line => (Text.wordsOf line.toList).length).sum ≤
      (back.map settings.estimateTokens).sum ∧
      (back.map fun line => line.toList.length + 1).sum ≤
        4 * (back.map settings.estimateTokens).sum + back.length := by
    induction back with
    | nil => exact ⟨Nat.le_refl _, Nat.zero_le _⟩
    | cons line rest ih =>
      rw [List.forall_mem_cons] at hback
      have hline := le_estimateTokens hencode hback.1
      have hrest := ih hback.2
      rw [List.map_cons, List.map_cons, List.map_cons, List.sum_cons, List.sum_cons, List.sum_cons,
        List.length_cons]
      omega
  have hlength := length_intercalate_append_le front back
  have hjoined := wordsOf_intercalate_newline (front ++ back)
  rw [List.map_append, List.sum_append, ← wordsOf_intercalate_newline] at hjoined
  rw [estimateTokens_eq hencode ("\n".intercalate (front ++ back))]
  split
  · exact Nat.zero_le _
  · by_cases hblank : Text.wordsOf ("\n".intercalate front).toList = []
    · have hnil : front = [] := by
        cases front with
        | nil => rfl
        | cons line rest =>
          have hpos := List.length_pos_iff.mpr (hfront line List.mem_cons_self)
          have hcount := wordsOf_intercalate_newline (line :: rest)
          rw [hblank, List.map_cons, List.sum_cons, List.length_nil] at hcount
          omega
      subst hnil
      have hempty : ("\n".intercalate []).toList.length = 0 := rfl
      rw [hblank] at hjoined
      rw [hempty] at hlength
      rw [estimateTokens_eq hencode ("\n".intercalate []), if_pos hblank]
      rw [List.length_nil] at hjoined
      omega
    · have hown := estimateTokens_eq hencode ("\n".intercalate front)
      rw [if_neg hblank] at hown
      omega

def lastKept (lower : List Char → List Char) (previous : String) (chunks : List Chunk) : String :=
  ((keptLines lower previous chunks).getLast?.map Prod.snd).getD previous

theorem keptLines_append (lower : List Char → List Char) (previous : String)
    (front back : List Chunk) :
    keptLines lower previous (front ++ back) =
      keptLines lower previous front ++ keptLines lower (lastKept lower previous front) back := by
  induction front generalizing previous with
  | nil => rfl
  | cons chunk rest ih =>
    rw [List.cons_append, keptLines, keptLines, lastKept, keptLines]
    generalize normalizeChunkText lower chunk.usefulText previous = text
    by_cases hdropped : chunk.usefulText = "" ∨ text = ""
    · rw [if_pos hdropped, if_pos hdropped, ih]
      rfl
    · have hlast : lastKept lower text rest =
          (((chunk, text) :: keptLines lower text rest).getLast?.map Prod.snd).getD previous := by
        rw [lastKept, List.getLast?_cons]
        cases (keptLines lower text rest).getLast? with
        | none => rfl
        | some kept => rfl
      rw [if_neg hdropped, if_neg hdropped, ih, List.cons_append, ← hlast]

def runningTexts (lower : List Char → List Char) : String → List Chunk → List (Chunk × String)
  | _, [] => []
  | previous, chunk :: rest =>
    (chunk, normalizeChunkText lower chunk.usefulText previous) ::
      runningTexts lower (normalizeChunkText lower chunk.usefulText previous) rest

def countedTokens (settings : Settings) (joined : List (Chunk × String)) : Nat :=
  (joined.map fun counted => settings.estimateTokens (line counted.1 counted.2)).sum

theorem countedTokens_nil (settings : Settings) : countedTokens settings [] = 0 := rfl

theorem countedTokens_concat (settings : Settings) (joined : List (Chunk × String))
    (counted : Chunk × String) :
    countedTokens settings (joined ++ [counted]) =
      countedTokens settings joined + settings.estimateTokens (line counted.1 counted.2) := by
  rw [countedTokens, List.map_append, List.sum_append, List.map_singleton, List.sum_singleton]
  rfl

def excessTokens (settings : Settings) : String → List (Chunk × String) → Nat
  | _, [] => 0
  | previous, (chunk, counted) :: rest =>
    let text := normalizeChunkText settings.lower chunk.usefulText previous
    if chunk.usefulText = "" ∨ text = "" then excessTokens settings previous rest
    else
      (settings.estimateTokens (line chunk text) - settings.estimateTokens (line chunk counted)) +
        excessTokens settings text rest

variable (settings) in
theorem storedTokens_le (previous : String) (joined : List (Chunk × String)) :
    (((keptLines settings.lower previous (joined.map Prod.fst)).map fun kept =>
        line kept.1 kept.2).map settings.estimateTokens).sum ≤
      countedTokens settings joined + excessTokens settings previous joined ∧
      (keptLines settings.lower previous (joined.map Prod.fst)).length ≤ joined.length := by
  induction joined generalizing previous with
  | nil => exact ⟨Nat.le_refl _, Nat.le_refl _⟩
  | cons entry rest ih =>
    obtain ⟨chunk, counted⟩ := entry
    have hcounted : countedTokens settings ((chunk, counted) :: rest) =
        settings.estimateTokens (line chunk counted) + countedTokens settings rest := rfl
    rw [List.map_cons, keptLines, excessTokens, hcounted, List.length_cons]
    generalize normalizeChunkText settings.lower chunk.usefulText previous = text
    by_cases hdropped : chunk.usefulText = "" ∨ text = ""
    · obtain ⟨htokens, hlength⟩ := ih previous
      rw [if_pos hdropped, if_pos hdropped]
      omega
    · obtain ⟨htokens, hlength⟩ := ih text
      rw [if_neg hdropped, if_neg hdropped, List.map_cons, List.map_cons, List.sum_cons,
        List.length_cons]
      dsimp only
      omega

variable {chunk : Chunk}

theorem wordsOf_line : Text.wordsOf (line chunk text).toList ≠ [] := by
  rw [toList_line]
  obtain ⟨word, more, heq, hword, hspace, hmore, -⟩ := Text.exists_word_append
    (show Text.isSpace '[' = false by decide)
    (Nat.toDigits 10 chunk.sequenceNumber ++ ']' :: ' ' :: text.toList)
  rw [heq, Text.wordsOf_word_append hword hspace hmore]
  exact List.cons_ne_nil _ _

theorem windowText_tokens_le (hencode : ∀ text, settings.encode text = none) (before : List Chunk)
    (joined : List (Chunk × String)) :
    settings.estimateTokens (windowText settings.lower (before ++ joined.map Prod.fst)) ≤
      usefulTokenCount settings before + countedTokens settings joined +
        (joined.length + 3) / 4 +
        excessTokens settings (lastKept settings.lower "" before) joined := by
  obtain ⟨htokens, hlength⟩ :=
    storedTokens_le settings (lastKept settings.lower "" before) joined
  have hlines : ∀ kept : List (Chunk × String),
      ∀ text ∈ kept.map (fun kept => line kept.1 kept.2), Text.wordsOf text.toList ≠ [] := by
    intro kept text htext
    obtain ⟨entry, -, rfl⟩ := List.mem_map.mp htext
    exact wordsOf_line
  rw [usefulTokenCount, windowText_eq, windowText_eq, keptLines_append, List.map_append]
  generalize lastKept settings.lower "" before = previous at htokens hlength ⊢
  have hjoin := estimateTokens_intercalate_append_le hencode
    (hlines (keptLines settings.lower "" before))
    (hlines (keptLines settings.lower previous (joined.map Prod.fst)))
  rw [List.length_map] at hjoin
  omega

/-- A window has the chunks that it took over, and those that joined it, which the loop counted one
after the other. It owns some of these. -/
structure Composed (settings : Settings) (all : List (Chunk × String)) (built : BuiltWindow)
    (before : List Chunk) (joined : List (Chunk × String)) : Prop where
  sequenceNumbers : built.sequenceNumbers =
    (before ++ joined.map Prod.fst).map Chunk.sequenceNumber
  owned : built.ownedSequenceNumbers.Sublist (joined.map fun counted => counted.1.sequenceNumber)
  text : built.window.text = windowText settings.lower (before ++ joined.map Prod.fst)
  counted : joined <:+: all

/-- With two chunks of its own, a window was counted within the target, and its text has at most
a token for four line breaks and the excess of its lines over that. -/
def CountedWithin (settings : Settings) (all : List (Chunk × String)) (built : BuiltWindow) :
    Prop :=
  2 ≤ built.ownedSequenceNumbers.length →
    ∃ before joined, Composed settings all built before joined ∧
      usefulTokenCount settings before + countedTokens settings joined ≤
        settings.semanticWindowTokenTarget ∧
      built.window.tokenCount ≤ settings.semanticWindowTokenTarget + (joined.length + 3) / 4 +
        excessTokens settings (lastKept settings.lower "" before) joined

/-- The window under way took over `before`, and counted `joined`, which comes before `later`. -/
structure Tally (settings : Settings) (all later : List (Chunk × String)) (before : List Chunk)
    (joined : List (Chunk × String)) (building : Building) : Prop where
  current : building.current = before ++ joined.map Prod.fst
  useful : ∀ chunk ∈ building.current, chunk.useful = true
  overlap : building.overlapIds = before.map Chunk.sequenceNumber
  counted : ∃ front, all = front ++ joined ++ later
  tokens : building.currentTokens =
    usefulTokenCount settings before + countedTokens settings joined
  within : 2 ≤ building.owned.length → building.currentTokens ≤ settings.semanticWindowTokenTarget

variable {conversation : ConversationDocument} {all later : List (Chunk × String)}
  {before : List Chunk} {joined : List (Chunk × String)} {building : Building}

theorem Tally.owned_sublist (h : Tally settings all later before joined building) :
    building.owned.Sublist (joined.map fun counted => counted.1.sequenceNumber) := by
  have hbefore : (before.map Chunk.sequenceNumber).filter (· ∉ building.overlapIds) = [] := by
    refine List.filter_eq_nil_iff.mpr fun number hnumber => ?_
    rw [decide_eq_true_eq, not_not, h.overlap]
    exact hnumber
  rw [Building.owned, List.filter_eq_self.mpr h.useful, h.current, List.map_append,
    List.filter_append, hbefore, List.nil_append, List.map_map]
  exact List.filter_sublist

theorem close_tokenCount (reason : CloseReason) (finalPartial : Bool) (tail : List Chunk) :
    (building.close settings conversation reason finalPartial tail).window.tokenCount =
      settings.estimateTokens
        (windowText settings.lower (building.current.filter Chunk.useful)) := by
  unfold Building.close
  with_reducible rfl

theorem Tally.close (hencode : ∀ text, settings.encode text = none)
    (h : Tally settings all later before joined building) (reason : CloseReason)
    (finalPartial : Bool) (tail : List Chunk) :
    CountedWithin settings all
      (building.close settings conversation reason finalPartial tail) := by
  intro howned
  have hcurrent : building.current.filter Chunk.useful = before ++ joined.map Prod.fst := by
    rw [List.filter_eq_self.mpr h.useful, h.current]
  obtain ⟨front, hall⟩ := h.counted
  have hwithin := h.within howned
  have hbound := windowText_tokens_le hencode before joined
  rw [h.tokens] at hwithin
  refine ⟨before, joined, ⟨?_, h.owned_sublist, ?_, ⟨front, later, hall.symm⟩⟩, hwithin, ?_⟩
  · unfold Building.close
    rw [hcurrent]
  · unfold Building.close
    rw [hcurrent]
  · rw [close_tokenCount, hcurrent]
    omega

variable (conversation) in
theorem Tally.flush (h : Tally settings all later before joined building)
    (howned : building.ownedExists = true) (reason : CloseReason) (finalPartial : Bool) :
    Tally settings all later (building.handedOn settings finalPartial) []
      (building.flush settings conversation reason finalPartial) := by
  have hnone := owned_flush settings conversation h.useful howned reason finalPartial
  have hsuffix := handedOn_suffix settings h.useful finalPartial
  obtain ⟨front, hall⟩ := h.counted
  rw [flush_eq settings conversation reason finalPartial h.useful howned] at hnone ⊢
  refine ⟨(List.append_nil _).symm, fun chunk hmem => h.useful chunk (hsuffix.subset hmem), rfl,
    ⟨front ++ joined, ?_⟩, ?_, fun htwo => ?_⟩
  · rw [List.append_nil]
    exact hall
  · rw [countedTokens_nil]
    dsimp only
    generalize usefulTokenCount settings (building.handedOn settings finalPartial) = tokens
    exact (Nat.add_zero tokens).symm
  · rw [hnone] at htwo
    exact absurd htwo (by decide)

theorem Tally.append {tokens : Nat}
    (h : Tally settings all ((chunk, text) :: later) before joined building)
    (huseful : chunk.useful = true) (htokens : settings.estimateTokens (line chunk text) = tokens)
    (hroom : building.ownedExists = true → building.currentTokens + tokens ≤
      settings.semanticWindowTokenTarget) :
    Tally settings all later before (joined ++ [(chunk, text)])
      (building.takeEmpties.append chunk text tokens) where
  current := by
    rw [List.map_append, ← List.append_assoc, ← h.current]
    rfl
  useful := by
    intro item hitem
    rcases List.mem_append.mp hitem with hmem | hmem
    · exact h.useful item hmem
    · rw [List.mem_singleton.mp hmem]
      exact huseful
  overlap := h.overlap
  counted := by
    obtain ⟨front, hall⟩ := h.counted
    refine ⟨front, ?_⟩
    rw [hall, List.append_assoc, List.append_assoc, List.append_assoc]
    rfl
  tokens := by
    rw [countedTokens_concat, htokens, ← Nat.add_assoc, ← h.tokens]
    rfl
  within := by
    intro htwo
    apply hroom
    rw [ownedExists_iff h.useful]
    intro hnone
    have howned : (building.takeEmpties.append chunk text tokens).owned =
        building.owned ++ [chunk.sequenceNumber].filter (· ∉ building.overlapIds) := by
      rw [Building.owned, Building.owned]
      change (((building.current ++ [chunk]).filter Chunk.useful).map
        Chunk.sequenceNumber).filter (· ∉ building.overlapIds) = _
      rw [List.filter_append, List.map_append, List.filter_append,
        List.filter_cons_of_pos huseful, List.filter_nil, List.map_singleton]
    have hone := List.length_filter_le (fun number => decide (number ∉ building.overlapIds))
      [chunk.sequenceNumber]
    rw [howned, hnone, List.nil_append] at htwo
    rw [List.length_singleton] at hone
    omega

theorem room_of_not_closing (huseful : chunk.useful = true)
    (hclosing : building.closing? settings chunk = none) (howned : building.ownedExists = true) :
    building.currentTokens +
        settings.estimateTokens (line chunk (building.countedText settings chunk)) ≤
      settings.semanticWindowTokenTarget := by
  rw [Building.closing?, if_pos huseful, ← Building.countedText, Building.reason?, howned]
    at hclosing
  generalize settings.estimateTokens (line chunk (building.countedText settings chunk)) = tokens
    at hclosing ⊢
  by_contra hover
  rw [Nat.not_le] at hover
  split at hclosing
  · cases hclosing
  · rw [if_pos (by simpa using hover)] at hclosing
    cases hclosing

/-- The loop has still to read `rest`. -/
def Tallied (settings : Settings) (all : List (Chunk × String)) (rest : List Chunk)
    (building : Building) : Prop :=
  (∃ before joined, Tally settings all
    (runningTexts settings.lower building.previousText (rest.filter Chunk.useful)) before joined
    building) ∧ ∀ built ∈ building.windows, CountedWithin settings all built

variable {rest : List Chunk}

theorem Tallied.step (hencode : ∀ text, settings.encode text = none)
    (h : Tallied settings all (chunk :: rest) building) :
    Tallied settings all rest (building.step settings conversation chunk) := by
  obtain ⟨⟨before, joined, htally⟩, hwindows⟩ := h
  cases huseful : chunk.useful with
  | false =>
    rw [List.filter_cons_of_neg (by rw [huseful]; exact Bool.false_ne_true)] at htally
    rw [step_of_blank settings conversation huseful]
    exact ⟨⟨before, joined, htally.current, htally.useful, htally.overlap, htally.counted,
      htally.tokens, htally.within⟩, hwindows⟩
  | true =>
    have hlater : runningTexts settings.lower building.previousText
        (chunk :: rest.filter Chunk.useful) =
          (chunk, building.countedText settings chunk) :: runningTexts settings.lower
            (building.countedText settings chunk) (rest.filter Chunk.useful) := by
      rw [runningTexts, Building.countedText]
    have hroom : building.closing? settings chunk = none → building.ownedExists = true →
        building.currentTokens +
          settings.estimateTokens (line chunk (building.countedText settings chunk)) ≤
            settings.semanticWindowTokenTarget := room_of_not_closing huseful
    rw [List.filter_cons_of_pos huseful, hlater] at htally
    rw [step_eq settings conversation huseful, Building.makeRoom]
    generalize building.countedText settings chunk = text at htally hroom ⊢
    generalize htokens : settings.estimateTokens (line chunk text) = tokens at hroom ⊢
    cases hclosing : building.closing? settings chunk with
    | none => exact ⟨⟨before, _, htally.append huseful htokens (hroom hclosing)⟩, hwindows⟩
    | some reason =>
      have howned := ownedExists_of_closing hclosing
      have hflushed := htally.flush conversation howned reason false
      have hnone := owned_flush settings conversation htally.useful howned reason false
      refine ⟨⟨_, _, hflushed.append huseful htokens fun hexists => ?_⟩, fun built hbuilt => ?_⟩
      · exact absurd hnone ((ownedExists_iff hflushed.useful).mp hexists)
      · change built ∈ (building.flush settings conversation reason false).windows at hbuilt
        rw [flush_eq settings conversation reason false htally.useful howned] at hbuilt
        rcases List.mem_append.mp hbuilt with hold | hnew
        · exact hwindows built hold
        · rw [List.mem_singleton.mp hnew]
          exact htally.close hencode reason false _

theorem Tallied.start (startIndex : Nat) {overlapChunks : List Chunk}
    (huseful : ∀ chunk ∈ overlapChunks, chunk.useful = true) :
    Tallied settings (runningTexts settings.lower (lastUsefulText settings.lower overlapChunks)
      (rest.filter Chunk.useful)) rest (Building.start settings overlapChunks startIndex) := by
  refine ⟨⟨overlapChunks, [], (List.append_nil _).symm, huseful, rfl, ⟨[], rfl⟩, ?_,
    fun htwo => ?_⟩, fun _ hbuilt => absurd hbuilt List.not_mem_nil⟩
  · rw [countedTokens_nil, Building.start]
    generalize usefulTokenCount settings overlapChunks = tokens
    exact (Nat.add_zero tokens).symm
  · rw [owned_start] at htwo
    exact absurd htwo (by decide)

theorem Tallied.run (hencode : ∀ text, settings.encode text = none)
    (h : Tallied settings all rest building) :
    Tallied settings all [] (rest.foldl (Building.step settings conversation) building) := by
  induction rest generalizing building with
  | nil => exact h
  | cons chunk rest ih =>
    rw [List.foldl_cons]
    exact ih (h.step hencode)

theorem Tallied.finish (hencode : ∀ text, settings.encode text = none)
    (h : Tallied settings all [] building) (forceFinal : Bool) :
    ∀ built ∈ (building.finish settings conversation forceFinal).windows,
      CountedWithin settings all built := by
  obtain ⟨⟨before, joined, htally⟩, hwindows⟩ := h
  have htaken : Tally settings all _ before joined building.takeEmpties :=
    ⟨htally.current, htally.useful, htally.overlap, htally.counted, htally.tokens, htally.within⟩
  rcases finish_cases settings conversation building forceFinal with
    ⟨-, heq⟩ | ⟨howned, reason, finalPartial, heq⟩ | ⟨-, -, heq⟩
  · rw [heq]
    exact hwindows
  · rw [heq, flush_eq settings conversation reason finalPartial htaken.useful howned]
    intro built hbuilt
    rcases List.mem_append.mp hbuilt with hold | hnew
    · exact hwindows built hold
    · rw [List.mem_singleton.mp hnew]
      exact htaken.close hencode reason finalPartial _
  · rw [heq]
    exact hwindows

/-- With the built-in estimate, every window that owns two chunks was counted within the target,
and its text has no more tokens than the target, a token for four line breaks, and the excess of
its lines over what was counted for them. -/
theorem windows_countedWithin (settings : Settings) (conversation : ConversationDocument)
    (chunks : List Chunk) (startIndex : Nat) (forceFinal : Bool) (overlapPrefix : List Chunk)
    (skippable : List Nat) (hencode : ∀ text, settings.encode text = none) :
    ∀ built ∈ buildReadyWindows settings conversation chunks startIndex forceFinal overlapPrefix
        skippable,
      CountedWithin settings
        (runningTexts settings.lower (lastUsefulText settings.lower (overlapOf overlapPrefix))
          ((reachableSemanticPrefix (ordered chunks) skippable).filter Chunk.useful)) built := by
  have huseful : ∀ chunk ∈ overlapOf overlapPrefix, chunk.useful = true :=
    fun chunk hmem => List.of_mem_filter hmem
  unfold buildReadyWindows
  dsimp only
  split
  · exact fun _ hbuilt => absurd hbuilt List.not_mem_nil
  · exact ((Tallied.start startIndex huseful).run hencode).finish hencode forceFinal

def fullChunks : List Chunk := [spoken 0 "aaaa", spoken 1 "bbbb"]

def smallTarget : Settings := { incrementalWindowTargetTokens := 4, overlapRatioTokens := 4 }

theorem windows_countedWithin_sample :
    smallTarget.encode "hello" = none ∧
    ∀ built ∈ buildReadyWindows smallTarget {} fullChunks 0 true [] [],
      CountedWithin smallTarget
        (runningTexts smallTarget.lower (lastUsefulText smallTarget.lower (overlapOf []))
          ((reachableSemanticPrefix (ordered fullChunks) []).filter Chunk.useful)) built :=
  ⟨rfl, windows_countedWithin smallTarget {} fullChunks 0 true [] [] fun _ => rfl⟩

/-- Two lines of two tokens each fill the target, and the line break is a token more. -/
theorem line_break_over_target :
    smallTarget.semanticWindowTokenTarget = 4 ∧
      ∃ built ∈ buildReadyWindows smallTarget {} fullChunks 0 true [] [],
        built.ownedSequenceNumbers = [0, 1] ∧ built.window.tokenCount = 5 := by
  decide +kernel

end AiBuddy.Conversation.Session
