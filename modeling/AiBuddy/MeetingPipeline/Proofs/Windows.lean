import AiBuddy.MeetingPipeline.Proofs.Labels

/-!
# Which words the windows hold

Every window holds the spoken words of its turns. A turn that goes into a window as a whole loses
none; a turn that is cut into fragments keeps its words where the fragments are all flushed and
where no fragment begins like a speaker label.
-/

namespace AiBuddy.MeetingPipeline

open Text

variable {encode : Option (String → Option Nat)} {host : EventPipeline.Host}
variable {conversationId : String} {sizes : WindowSizes}

def lineWords (line : String) : List String := fields (splitSpeakerLabel line).2

def spokenWords (raw : String) : List String := (linesOf raw).flatMap lineWords

def windowWords (windows : List ExtractionWindow) : List String :=
  windows.flatMap fun window => fields window.text

/-- The fragments of a turn begin like a speaker label only where the turn does, and no label is
glued to the word after it, but for one that begins the first fragment. -/
structure LabelsKept (encode : Option (String → Option Nat)) (maxTokens : Nat)
    (turn : TranscriptTurn) : Prop where
  later : ∀ fragment ∈ (splitOversizeTurn encode maxTokens turn).tail,
    (splitSpeakerLabel fragment.rawText).1 = none
  first : ∀ fragment ∈ (splitOversizeTurn encode maxTokens turn).head?,
    (splitSpeakerLabel fragment.rawText).1 ≠ none →
      ∀ line ∈ (linesOf turn.rawText).head?, (splitSpeakerLabel line).1 ≠ none
  firstApart : ∀ fragment ∈ (splitOversizeTurn encode maxTokens turn).head?,
    (splitSpeakerLabel fragment.rawText).1 = none →
      ∀ line ∈ (linesOf turn.rawText).head?, (lineWords line).Sublist (fields line)
  apart : ∀ line ∈ (linesOf turn.rawText).tail, (lineWords line).Sublist (fields line)

theorem speakerPrefix?_rest {cs number rest : List Char}
    (h : speakerPrefix? cs = some (number, rest)) : ∀ c ∈ rest.head?, isSpace c = false := by
  unfold speakerPrefix? at h
  rw [Option.bind_eq_some_iff] at h
  obtain ⟨named, -, hnumber⟩ := h
  dsimp only at hnumber
  split at hnumber
  · cases hnumber
  · rw [Option.some.injEq, Prod.mk.injEq] at hnumber
    obtain ⟨-, rfl⟩ := hnumber
    intro c hc
    exact head?_dropWhile_space hc

theorem wordsOf_cons_ne_nil {c : Char} (hc : isSpace c = false) (cs : List Char) :
    wordsOf (c :: cs) ≠ [] := by
  obtain ⟨word, rest, heq, hne, hword, hrest, -⟩ := exists_word_append hc cs
  rw [heq, wordsOf_word_append hne hword hrest]
  exact List.cons_ne_nil _ _

variable {text : String}

theorem wordsOf_eq_nil_of_strip (h : strip text = "") : wordsOf text.toList = [] := by
  rw [← wordsOf_strip, h]
  rfl

theorem wordsOf_ne_nil_of_strip (h : strip text ≠ "") : wordsOf text.toList ≠ [] := by
  rw [← wordsOf_strip]
  cases htrim : (strip text).toList with
  | nil => exact absurd (String.toList_eq_nil_iff.mp htrim) h
  | cons c cs =>
    have hhead := (trimmed_trim text.toList).1
    rw [← toList_strip, htrim] at hhead
    exact wordsOf_cons_ne_nil (hhead c rfl) cs

theorem splitSpeakerLabel_cases (line : String) :
    (∃ label rest, labelRest? (trim line.toList) = some rest ∧
        splitSpeakerLabel line = (some label, strip (.ofList rest))) ∨
      labelRest? (trim line.toList) = none ∧ splitSpeakerLabel line = (none, strip line) := by
  rw [← toList_strip]
  unfold splitSpeakerLabel labelRest?
  dsimp only
  cases hfound : speakerPrefix? (strip line).toList with
  | none => exact .inr ⟨rfl, rfl⟩
  | some found =>
    obtain ⟨number, rest⟩ := found
    dsimp only [Option.map_some]
    by_cases hrest : rest = []
    · right
      rw [hrest]
      exact ⟨rfl, rfl⟩
    · left
      have hstrip : strip (.ofList rest) ≠ "" := by
        intro hnil
        cases rest with
        | nil => exact hrest rfl
        | cons c cs =>
          refine wordsOf_cons_ne_nil (speakerPrefix?_rest hfound c rfl) cs ?_
          have hwords := wordsOf_eq_nil_of_strip hnil
          rwa [String.toList_ofList] at hwords
      refine ⟨_, rest, ?_, if_neg hstrip⟩
      simp [Option.filter_some, hrest]

variable {line : String}

theorem labelRest?_words :
    labelRest? (joinWords (wordsOf line.toList)) =
      (labelRest? (trim line.toList)).map (collapse false) := by
  rw [← wordsOf_trim, ← collapse_eq_joinWords (trimmed_trim _), labelRest?_collapse]

theorem lineWords_eq (line : String) :
    lineWords line = (spokenOf (wordsOf line.toList)).map String.ofList := by
  rw [lineWords, fields_eq, spokenOf, labelRest?_words]
  rcases splitSpeakerLabel_cases line with ⟨label, rest, hrest, hsplit⟩ | ⟨hrest, hsplit⟩
  · rw [hrest, hsplit, wordsOf_strip, String.toList_ofList]
    simp
  · rw [hrest, hsplit, wordsOf_strip]
    rfl

theorem splitSpeakerLabel_eq_none_iff :
    (splitSpeakerLabel line).1 = none ↔ readsAsLabel (wordsOf line.toList) = false := by
  rw [readsAsLabel, labelRest?_words]
  rcases splitSpeakerLabel_cases line with ⟨label, rest, hrest, hsplit⟩ | ⟨hrest, hsplit⟩
  · simp [hrest, hsplit]
  · simp [hrest, hsplit]

theorem words_wordsOf {cs : List Char} : Words (wordsOf cs) := fun _ hword => mem_wordsOf hword

theorem fields_formatLine (turn : TranscriptTurn) (line : String) :
    ∃ label, fields (formatLine turn line) =
      (wordsOf ('[' :: label)).map String.ofList ++ lineWords line := by
  have hlist : ∀ id speaker text : String, ("[" ++ id ++ "][" ++ speaker ++ "] " ++ text).toList =
      '[' :: (id.toList ++ ']' :: '[' :: (speaker.toList ++ [']'])) ++ ' ' :: text.toList := by
    intro id speaker text
    simp
  unfold formatLine
  dsimp only
  rw [lineWords, fields_eq, fields_eq, String.toList_ofList, hlist, wordsOf_trimEnd,
    wordsOf_append_space (by decide), List.map_append]
  exact ⟨_, rfl⟩

theorem lineWords_sublist_formatLine (turn : TranscriptTurn) (line : String) :
    (lineWords line).Sublist (fields (formatLine turn line)) := by
  obtain ⟨label, h⟩ := fields_formatLine turn line
  rw [h]
  exact List.sublist_append_right _ _

variable {turn : TranscriptTurn}

theorem formatWindowLine_eq (h : linesOf turn.rawText ≠ []) :
    formatWindowLine turn = "\n".intercalate ((linesOf turn.rawText).map (formatLine turn)) := by
  unfold formatWindowLine
  cases hlines : linesOf turn.rawText with
  | nil => exact absurd hlines h
  | cons line rest => rfl

theorem spokenWords_sublist_formatWindowLine {turn : TranscriptTurn} :
    (spokenWords turn.rawText).Sublist (fields (formatWindowLine turn)) := by
  by_cases h : linesOf turn.rawText = []
  · rw [spokenWords, h, List.flatMap_nil]
    exact List.nil_sublist _
  · rw [formatWindowLine_eq h, fields_intercalate_newline, List.flatMap_map, spokenWords]
    generalize linesOf turn.rawText = lines
    induction lines with
    | nil => simp
    | cons line rest ih =>
      rw [List.flatMap_cons, List.flatMap_cons]
      exact (lineWords_sublist_formatLine turn line).append ih

theorem spokenWords_sublist_windowText {turns : List TranscriptTurn} (hmem : turn ∈ turns)
    (huseful : turn.isUseful = true) :
    (spokenWords turn.rawText).Sublist (fields (windowText turns)) := by
  rw [windowText, fields_intercalate_newline, List.flatMap_map]
  refine (spokenWords_sublist_formatWindowLine).trans ?_
  obtain ⟨front, back, hsplit⟩ :=
    List.append_of_mem (List.mem_filter.mpr ⟨hmem, huseful⟩)
  rw [hsplit, List.flatMap_append, List.flatMap_cons]
  exact (List.sublist_append_left _ _).trans (List.sublist_append_right _ _)

theorem flatMap_linesOf (raw : String) :
    (linesOf raw).flatMap (fun line => wordsOf line.toList) = wordsOf raw.toList := by
  rw [← flatMap_splitLines, linesOf]
  generalize splitLines raw = lines
  induction lines with
  | nil => rfl
  | cons line rest ih =>
    rw [List.map_cons, List.map_cons, List.flatMap_cons, ← ih, List.filter_cons]
    by_cases h : strip line = ""
    · rw [if_neg (by simp [h]), wordsOf_eq_nil_of_strip h, List.nil_append]
    · rw [if_pos (by simp [h]), List.flatMap_cons, wordsOf_strip]

variable (encode) in
theorem chunkWords_spec (maxTokens : Nat) (turn : TranscriptTurn) (current rest : List String) :
    (chunkWords encode maxTokens turn current rest).flatten = current ++ rest ∧
      ∀ chunk ∈ chunkWords encode maxTokens turn current rest, chunk ≠ [] := by
  induction rest generalizing current with
  | nil =>
    rw [chunkWords]
    split
    next h => simp [h]
    next h => simp [h]
  | cons word rest ih =>
    rw [chunkWords]
    split
    next h =>
      obtain ⟨hflatten, hchunks⟩ := ih [word]
      rw [List.flatten_cons, hflatten, List.forall_mem_cons]
      exact ⟨rfl, h.1, hchunks⟩
    next =>
      obtain ⟨hflatten, hchunks⟩ := ih (current ++ [word])
      rw [hflatten, List.append_assoc]
      exact ⟨rfl, hchunks⟩

theorem wordsOf_ofWords {chunk : List String} (h : Words (chunk.map String.toList)) :
    wordsOf (turn.ofWords chunk).rawText.toList = chunk.map String.toList := by
  rw [TranscriptTurn.ofWords, toList_intercalate_blank, wordsOf_joinWords h]

theorem spokenWords_ofWords {chunk : List String} (hne : chunk ≠ [])
    (h : Words (chunk.map String.toList)) :
    spokenWords (turn.ofWords chunk).rawText =
      (spokenOf (chunk.map String.toList)).map String.ofList := by
  have hwords : wordsOf (turn.ofWords chunk).rawText.toList = chunk.map String.toList :=
    wordsOf_ofWords h
  have hlist : (turn.ofWords chunk).rawText.toList = joinWords (chunk.map String.toList) :=
    toList_intercalate_blank chunk
  have hbreaks : ∀ c ∈ (turn.ofWords chunk).rawText.toList, isLineBreak c = false := by
    intro c hc
    rw [hlist] at hc
    rw [Bool.eq_false_iff]
    intro hbreak
    rcases mem_joinWords hc with rfl | ⟨word, hword, hmem⟩
    · exact absurd hbreak (by decide)
    · have hspace := isSpace_of_isLineBreak hbreak
      rw [(h word hword).2 c hmem] at hspace
      cases hspace
  have hnonempty : (turn.ofWords chunk).rawText.toList ≠ [] := by
    intro hnil
    rw [hnil, wordsOf_nil] at hwords
    exact hne (List.map_eq_nil_iff.mp hwords.symm)
  have hlines : linesOf (turn.ofWords chunk).rawText = [strip (turn.ofWords chunk).rawText] := by
    have hstrip : strip (turn.ofWords chunk).rawText ≠ "" := by
      intro hblank
      rw [wordsOf_eq_nil_of_strip hblank] at hwords
      exact hne (List.map_eq_nil_iff.mp hwords.symm)
    rw [linesOf, splitLines, linesFrom_of_no_break hbreaks (by simpa using hnonempty)]
    simp [hstrip]
  rw [spokenWords, hlines, List.flatMap_singleton, lineWords_eq, wordsOf_strip, hwords]

theorem sublist_of_lineWords (h : (lineWords line).Sublist (fields line)) :
    (spokenOf (wordsOf line.toList)).Sublist (wordsOf line.toList) := by
  rw [lineWords_eq, fields_eq] at h
  simpa [List.map_map, Function.comp_def] using h.map String.toList

theorem words_map_toList_fields : (fields text).map String.toList = wordsOf text.toList := by
  rw [fields_eq, List.map_map]
  simp [Function.comp_def]

theorem spokenWords_splitOversizeTurn {maxTokens : Nat} (hlong : 1 < (fields turn.rawText).length)
    (h : LabelsKept encode maxTokens turn) :
    (spokenWords turn.rawText).Sublist
      ((splitOversizeTurn encode maxTokens turn).flatMap fun fragment =>
        spokenWords fragment.rawText) := by
  obtain ⟨hlater, hfirst, hfirstApart, hapart⟩ := h
  have hsplit : splitOversizeTurn encode maxTokens turn =
      (chunkWords encode maxTokens turn [] (fields turn.rawText)).map turn.ofWords :=
    if_neg (by omega)
  obtain ⟨hflatten, hnonempty⟩ :=
    chunkWords_spec encode maxTokens turn [] (fields turn.rawText)
  rw [hsplit] at hlater hfirst hfirstApart ⊢
  have hlines := flatMap_linesOf turn.rawText
  generalize chunkWords encode maxTokens turn [] (fields turn.rawText) = chunks at *
  rw [List.nil_append] at hflatten
  rw [spokenWords]
  generalize linesOf turn.rawText = lines at *
  have hall : Words ((chunks.map (·.map String.toList)).flatten) := by
    rw [← List.map_flatten, hflatten, words_map_toList_fields]
    exact words_wordsOf
  have hchunk : ∀ chunk ∈ chunks, Words (chunk.map String.toList) := by
    intro chunk hchunk word hword
    exact hall word (List.mem_flatten.mpr ⟨_, List.mem_map_of_mem hchunk, hword⟩)
  have hlabel : ∀ chunk ∈ chunks, (splitSpeakerLabel (turn.ofWords chunk).rawText).1 = none ↔
      readsAsLabel (chunk.map String.toList) = false := by
    intro chunk hmem
    rw [splitSpeakerLabel_eq_none_iff, wordsOf_ofWords (hchunk chunk hmem)]
  cases chunks with
  | nil =>
    rw [← hflatten] at hlong
    exact absurd hlong (by simp)
  | cons chunk chunks =>
    cases lines with
    | nil => exact List.nil_sublist _
    | cons line lines =>
      rw [List.forall_mem_cons] at hchunk hlabel hnonempty
      have hrest : (chunks.map turn.ofWords).flatMap (fun fragment =>
          spokenWords fragment.rawText) =
            ((chunks.map (·.map String.toList)).flatMap spokenOf).map String.ofList := by
        rw [List.flatMap_map, List.flatMap_map, List.map_flatMap]
        refine List.flatMap_congr ?_
        intro other hother
        exact spokenWords_ofWords (hnonempty.2 other hother) (hchunk.2 other hother)
      have hspoken : ((chunk :: chunks).map turn.ofWords).flatMap (fun fragment =>
          spokenWords fragment.rawText) = (spokenOf (chunk.map String.toList) ++
            (chunks.map (·.map String.toList)).flatMap spokenOf).map String.ofList := by
        rw [List.map_cons, List.flatMap_cons, hrest, spokenWords_ofWords hnonempty.1 hchunk.1,
          List.map_append]
      have hlineWords : (line :: lines).flatMap lineWords =
          (spokenOf (wordsOf line.toList) ++
            (lines.map fun line => wordsOf line.toList).flatMap spokenOf).map String.ofList := by
        rw [List.flatMap_cons, lineWords_eq, List.map_append, List.flatMap_map, List.map_flatMap,
          List.flatMap_congr fun other _ => lineWords_eq other]
      rw [hspoken, hlineWords]
      refine List.Sublist.map _ (spokenOf_fragments ?_ ?_ ?_ ?_ ?_ ?_ ?_)
      · rw [← List.flatMap_def, ← List.flatMap_cons (f := fun line : String => wordsOf line.toList),
          hlines, ← words_map_toList_fields, ← hflatten, List.map_flatten, List.map_cons,
          List.flatten_cons]
      · intro word hword
        obtain ⟨other, hother, hmem⟩ := List.mem_flatten.mp hword
        obtain ⟨text, -, rfl⟩ := List.mem_map.mp hother
        exact mem_wordsOf hmem
      · intro word hword
        exact hall word (List.mem_append_right _ hword)
      · intro fragment hfragment
        obtain ⟨other, hother, rfl⟩ := List.mem_map.mp hfragment
        exact (hlabel.2 other hother).mp (hlater _ (List.mem_map_of_mem hother))
      · intro hreads
        have hne := hfirst (turn.ofWords chunk) rfl (by simp [hlabel.1, hreads]) line rfl
        rw [ne_eq, splitSpeakerLabel_eq_none_iff, Bool.not_eq_false] at hne
        exact hne
      · intro hreads
        exact sublist_of_lineWords
          (hfirstApart (turn.ofWords chunk) rfl (hlabel.1.mpr hreads) line rfl)
      · intro other hother
        obtain ⟨text, htext, rfl⟩ := List.mem_map.mp hother
        exact sublist_of_lineWords (hapart text htext)

end AiBuddy.MeetingPipeline
