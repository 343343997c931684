import AiBuddy.Conversation.SemanticInput
import AiBuddy.Conversation.Proofs.Windowing

/-!
# Lines that are written and read back

`_window_text` writes a line for each chunk whose text is not removed as an overlap, and
`parsed_semantic_sequences` reads the sequence numbers of these lines.
-/

namespace AiBuddy.Conversation.SemanticInput

open Session

/-- The chunks that have a line in `_window_text`, with the texts of their lines. -/
def keptLines (lower : List Char → List Char) : String → List Chunk → List (Chunk × String)
  | _, [] => []
  | previous, chunk :: rest =>
    let text := normalizeChunkText lower chunk.usefulText previous
    if chunk.usefulText = "" ∨ text = "" then keptLines lower previous rest
    else (chunk, text) :: keptLines lower text rest

theorem windowLines_eq (lower : List Char → List Char) (previous : String) (chunks : List Chunk) :
    windowLines lower previous chunks =
      (keptLines lower previous chunks).map fun kept => line kept.1 kept.2 := by
  induction chunks generalizing previous with
  | nil => rfl
  | cons chunk rest ih =>
    rw [windowLines, keptLines]
    split
    · exact ih previous
    · rw [List.map_cons, ih]

structure Neat (cs : List Char) : Prop where
  blanks : ∀ c ∈ cs, Text.isSpace c = true → c = ' '
  trimmed : Text.Trimmed cs

theorem blanks_collapse {after : Bool} {cs : List Char} {c : Char} (hc : c ∈ Text.collapse after cs)
    (hspace : Text.isSpace c = true) : c = ' ' := by
  induction cs generalizing after with
  | nil => cases hc
  | cons first rest ih =>
    rw [Text.collapse] at hc
    split at hc
    · split at hc
      · exact ih hc
      · rcases List.mem_cons.mp hc with hblank | hmem
        · exact hblank
        · exact ih hmem
    · next hword =>
      rcases List.mem_cons.mp hc with rfl | hmem
      · exact absurd hspace hword
      · exact ih hmem

theorem neat_collapsed (text : String) : Neat (collapsed text) := by
  rw [collapsed, Text.toList_strip, Text.collapseSpaces, String.toList_ofList]
  refine ⟨fun c hc hspace => ?_, Text.trimmed_trim _⟩
  have hsub : (Text.trim (Text.collapse false text.toList)).Sublist
      (Text.collapse false text.toList) := by
    unfold Text.trim Text.trimEnd
    rw [← List.reverse_sublist, List.reverse_reverse]
    refine (List.dropWhile_sublist _).trans ?_
    exact List.reverse_sublist.mpr (List.dropWhile_sublist _)
  exact blanks_collapse (hsub.subset hc) hspace

theorem neat_normalizeChunkText (lower : List Char → List Char) (text previousText : String) :
    Neat (normalizeChunkText lower text previousText).toList := by
  have hneat := neat_collapsed text
  rcases normalizeChunkText_cases lower text previousText with heq | ⟨size, -, -, -, heq⟩
  · rw [heq, String.toList_ofList]
    exact hneat
  · rw [heq, String.toList_ofList]
    have hsuffix : ((collapsed text).drop size).dropWhile (· ∈ separators) <:+ collapsed text :=
      (List.dropWhile_suffix _).trans (List.drop_suffix _ _)
    refine ⟨fun c hc hspace => hneat.blanks c (hsuffix.subset hc) hspace, fun c hc => ?_,
      fun c hc => ?_⟩
    · have hhead := List.head?_dropWhile_not (· ∈ separators) ((collapsed text).drop size)
      have hmem := hsuffix.subset (List.mem_of_mem_head? hc)
      rw [Option.mem_def.mp hc] at hhead
      cases hspace : Text.isSpace c with
      | false => rfl
      | true =>
        rw [hneat.blanks c hmem hspace] at hhead
        exact absurd hhead (by decide)
    · obtain ⟨front, hfront⟩ := hsuffix
      refine hneat.trimmed.2 c ?_
      rw [← hfront, List.getLast?_append, Option.mem_def.mp hc]
      rfl

theorem wordsOf_ne_nil {cs : List Char} (h : Text.Trimmed cs) (hne : cs ≠ []) :
    Text.wordsOf cs ≠ [] := by
  cases cs with
  | nil => exact absurd rfl hne
  | cons c rest =>
    obtain ⟨word, more, heq, hword, hspace, hmore, -⟩ := Text.exists_word_append (h.1 c rfl) rest
    rw [heq, Text.wordsOf_word_append hword hspace hmore]
    exact List.cons_ne_nil _ _

theorem keptLines_spec (lower : List Char → List Char) (previous : String) (chunks : List Chunk) :
    ((keptLines lower previous chunks).map Prod.fst).Sublist chunks ∧
      ∀ kept ∈ keptLines lower previous chunks, kept.2 ≠ "" ∧ Neat kept.2.toList := by
  induction chunks generalizing previous with
  | nil => exact ⟨.slnil, fun _ hmem => absurd hmem List.not_mem_nil⟩
  | cons chunk rest ih =>
    have hnormalized := neat_normalizeChunkText lower chunk.usefulText previous
    rw [keptLines]
    generalize normalizeChunkText lower chunk.usefulText previous = text at hnormalized ⊢
    split
    · exact ⟨(ih previous).1.cons chunk, (ih previous).2⟩
    · next hkept =>
      rw [not_or] at hkept
      obtain ⟨hsublist, hneat⟩ := ih text
      refine ⟨hsublist.cons_cons chunk, ?_⟩
      rw [List.forall_mem_cons]
      exact ⟨⟨hkept.2, hnormalized⟩, hneat⟩

variable {lower : List Char → List Char}

theorem normalizeChunkText_empty (hlower : lower [] = []) (text : String) :
    normalizeChunkText lower text "" = .ofList (collapsed text) := by
  have htail : lower (previousTail "") = [] := by
    rw [show previousTail "" = [] from by decide, hlower]
  have hnone : ∀ limit, overlapSize (lower (collapsed text)) [] limit = none := by
    intro limit
    induction limit with
    | zero => rfl
    | succ limit ih =>
      rw [overlapSize]
      split
      · rfl
      · rw [if_neg fun h => h.1 (List.infix_nil.mp h.2), ih]
  unfold normalizeChunkText
  dsimp only
  rw [htail]
  split
  · next size hsize =>
    rw [← collapsed, hnone] at hsize
    cases hsize
  · rfl

variable {chunk : Chunk}

theorem collapsed_usefulText_ne_nil (h : chunk.useful = true) :
    collapsed chunk.usefulText ≠ [] := by
  have hne : chunk.usefulText ≠ "" := of_decide_eq_true h
  have htrimmed : Text.Trimmed chunk.usefulText.toList := by
    rw [Chunk.usefulText, Text.toList_strip]
    exact Text.trimmed_trim _
  have hwords := wordsOf_ne_nil htrimmed fun hnil => hne (String.toList_eq_nil_iff.mp hnil)
  intro hnil
  apply hwords
  have hsame : Text.wordsOf (collapsed chunk.usefulText) =
      Text.wordsOf chunk.usefulText.toList := by
    rw [collapsed, Text.wordsOf_strip, Text.collapseSpaces, String.toList_ofList,
      Text.wordsOf_collapse]
  rw [← hsame, hnil]
  rfl

variable {chunks : List Chunk}

theorem keptLines_ne_nil (hlower : lower [] = []) (hne : chunks ≠ [])
    (huseful : ∀ chunk ∈ chunks, chunk.useful = true) :
    keptLines lower "" chunks ≠ [] := by
  cases chunks with
  | nil => exact absurd rfl hne
  | cons chunk rest =>
    have hfirst := huseful chunk List.mem_cons_self
    have htext : normalizeChunkText lower chunk.usefulText "" ≠ "" := by
      rw [normalizeChunkText_empty hlower]
      exact fun hnil => collapsed_usefulText_ne_nil hfirst (by simpa using hnil)
    rw [keptLines, if_neg (not_or.mpr ⟨of_decide_eq_true hfirst, htext⟩)]
    exact List.cons_ne_nil _ _

theorem toList_line (chunk : Chunk) (text : String) :
    (line chunk text).toList =
      '[' :: (Nat.toDigits 10 chunk.sequenceNumber ++ ']' :: ' ' :: text.toList) := by
  have hdigits : (toString chunk.sequenceNumber).toList =
      Nat.toDigits 10 chunk.sequenceNumber := Nat.toList_repr
  rw [line, String.toList_append, String.toList_append, String.toList_append, hdigits]
  simp

theorem markedLine_line (chunk : Chunk) (text : String) :
    markedLine (line chunk text).toList =
      some (chunk.sequenceNumber, Text.wordsOf text.toList) := by
  have hdigit : ∀ c ∈ Nat.toDigits 10 chunk.sequenceNumber, c.isDigit = true :=
    fun c hc => Nat.isDigit_of_mem_toDigits (by omega) (by omega) hc
  have htake : (Nat.toDigits 10 chunk.sequenceNumber ++ ']' :: ' ' :: text.toList).takeWhile
      Char.isDigit = Nat.toDigits 10 chunk.sequenceNumber := by
    rw [List.takeWhile_append_of_pos hdigit, List.takeWhile_cons_of_neg (by decide),
      List.append_nil]
  have hdrop : (Nat.toDigits 10 chunk.sequenceNumber ++ ']' :: ' ' :: text.toList).dropWhile
      Char.isDigit = ']' :: ' ' :: text.toList := by
    rw [List.dropWhile_append_of_pos hdigit, List.dropWhile_cons_of_neg (by decide)]
  have hread := Text.digits?_toDigits chunk.sequenceNumber
  rw [toList_line, markedLine, List.dropWhile_cons_of_neg (by decide)]
  change numberedText _ = _
  rw [numberedText, htake, hdrop]
  cases hlist : Nat.toDigits 10 chunk.sequenceNumber with
  | nil => exact absurd hlist Nat.toDigits_ne_nil
  | cons digit digits =>
    rw [hlist, Text.digits?] at hread
    split at hread
    · cases hread
    · change some (Nat.ofDigitChars 10 (digit :: digits) 0,
        Text.wordsOf (' ' :: text.toList)) = _
      rw [Option.some.inj hread, Text.wordsOf_cons_space (by decide)]

variable {text : String}

theorem parsedLine_line (hne : text ≠ "") (hneat : Neat text.toList) :
    ∃ read, parsedLine (line chunk text) = some (chunk.sequenceNumber, read) := by
  have hwords := wordsOf_ne_nil hneat.trimmed fun hnil => hne (String.toList_eq_nil_iff.mp hnil)
  refine ⟨.ofList (Text.joinWords (Text.wordsOf text.toList)), ?_⟩
  rw [parsedLine, markedLine_line]
  exact if_neg hwords

theorem trimmed_line (hne : text ≠ "") (hneat : Neat text.toList) :
    Text.Trimmed (line chunk text).toList := by
  have hlist : text.toList ≠ [] := fun hnil => hne (String.toList_eq_nil_iff.mp hnil)
  rw [toList_line]
  refine ⟨fun c hc => ?_, fun c hc => ?_⟩
  · cases hc
    decide
  · have hlast : ('[' :: (Nat.toDigits 10 chunk.sequenceNumber ++ ']' :: ' ' ::
        text.toList)).getLast? = text.toList.getLast? := by
      have hsplit : '[' :: (Nat.toDigits 10 chunk.sequenceNumber ++ ']' :: ' ' :: text.toList) =
          ('[' :: (Nat.toDigits 10 chunk.sequenceNumber ++ [']', ' '])) ++ text.toList := by
        simp
      rw [hsplit, List.getLast?_append_of_ne_nil _ hlist]
    rw [hlast] at hc
    exact hneat.trimmed.2 c hc

theorem noBreak_line (hneat : Neat text.toList) :
    ∀ c ∈ (line chunk text).toList, Text.isLineBreak c = false := by
  intro c hc
  cases hbreak : Text.isLineBreak c with
  | false => rfl
  | true =>
    have hspace := Text.isSpace_of_isLineBreak hbreak
    rw [toList_line] at hc
    rcases List.mem_cons.mp hc with rfl | hc
    · exact absurd hbreak (by decide)
    rcases List.mem_append.mp hc with hdigit | hc
    · have hrepr : c ∈ ((chunk.sequenceNumber : Int).repr).toList := by
        have hlist : ((chunk.sequenceNumber : Int).repr).toList =
            Nat.toDigits 10 chunk.sequenceNumber := Nat.toList_repr
        rw [hlist]
        exact hdigit
      rw [Text.isSpace_of_mem_repr hrepr] at hspace
      cases hspace
    rcases List.mem_cons.mp hc with rfl | hc
    · exact absurd hbreak (by decide)
    rcases List.mem_cons.mp hc with rfl | hc
    · exact absurd hbreak (by decide)
    rw [hneat.blanks c hc hspace] at hbreak
    exact absurd hbreak (by decide)

theorem intercalate_ne_nil {line : String} (hne : line.toList ≠ []) (rest : List String) :
    ("\n".intercalate (line :: rest)).toList ≠ [] := by
  intro hnil
  cases rest with
  | nil =>
    rw [String.intercalate_singleton] at hnil
    exact hne hnil
  | cons next more =>
    rw [String.intercalate_cons_cons, String.toList_append, String.toList_append,
      List.append_assoc] at hnil
    exact hne (List.append_eq_nil_iff.mp hnil).1

theorem trimmed_intercalate {lines : List String} (hne : ∀ line ∈ lines, line.toList ≠ [])
    (h : ∀ line ∈ lines, Text.Trimmed line.toList) :
    Text.Trimmed ("\n".intercalate lines).toList := by
  induction lines with
  | nil => exact ⟨fun c hc => (by cases hc), fun c hc => (by cases hc)⟩
  | cons line rest ih =>
    rw [List.forall_mem_cons] at hne h
    cases rest with
    | nil =>
      rw [String.intercalate_singleton]
      exact h.1
    | cons next more =>
      have hrest := ih hne.2 h.2
      have hnext := intercalate_ne_nil (hne.2 next List.mem_cons_self) more
      rw [String.intercalate_cons_cons, String.toList_append, String.toList_append]
      refine ⟨fun c hc => ?_, fun c hc => ?_⟩
      · rw [List.append_assoc, List.head?_append_of_ne_nil _ hne.1] at hc
        exact h.1.1 c hc
      · rw [List.getLast?_append_of_ne_nil _ hnext] at hc
        exact hrest.2 c hc

theorem windowText_eq (lower : List Char → List Char) (chunks : List Chunk) :
    windowText lower chunks = "\n".intercalate
      ((keptLines lower "" chunks).map fun kept => line kept.1 kept.2) := by
  have hkept := (keptLines_spec lower "" chunks).2
  have hlines : ∀ text ∈ (keptLines lower "" chunks).map (fun kept => line kept.1 kept.2),
      text.toList ≠ [] ∧ Text.Trimmed text.toList := by
    intro text htext
    obtain ⟨kept, hmem, rfl⟩ := List.mem_map.mp htext
    refine ⟨?_, trimmed_line (hkept kept hmem).1 (hkept kept hmem).2⟩
    rw [toList_line]
    exact List.cons_ne_nil _ _
  rw [windowText, windowLines_eq, ← String.toList_inj, Text.toList_strip]
  generalize (keptLines lower "" chunks).map (fun kept => line kept.1 kept.2) = lines at hlines ⊢
  have htrimmed := trimmed_intercalate (fun text htext => (hlines text htext).1)
    fun text htext => (hlines text htext).2
  by_cases hnil : ("\n".intercalate lines).toList = []
  · rw [hnil]
    rfl
  · exact Text.trim_of_trimmed htrimmed hnil

theorem windowText_ne_empty (h : keptLines lower "" chunks ≠ []) :
    windowText lower chunks ≠ "" := by
  rw [windowText_eq, Ne, ← String.toList_eq_nil_iff]
  cases hlist : keptLines lower "" chunks with
  | nil => exact absurd hlist h
  | cons kept rest =>
    rw [List.map_cons]
    refine intercalate_ne_nil ?_ _
    rw [toList_line]
    exact List.cons_ne_nil _ _

theorem parsed_windowText (lower : List Char → List Char)
    (hnodup : (chunks.map Chunk.sequenceNumber).Nodup) :
    (parsedSemanticSequences (windowText lower chunks)).map Prod.fst =
      (keptLines lower "" chunks).map fun kept => kept.1.sequenceNumber := by
  obtain ⟨hsublist, hkept⟩ := keptLines_spec lower "" chunks
  have hdistinct : ((keptLines lower "" chunks).map fun kept => kept.1.sequenceNumber).Nodup := by
    have hmap := (hsublist.map Chunk.sequenceNumber).nodup hnodup
    rw [List.map_map] at hmap
    exact hmap
  have hsplit : Text.splitLines (windowText lower chunks) =
      (keptLines lower "" chunks).map fun kept => line kept.1 kept.2 := by
    rw [windowText_eq]
    refine Text.splitLines_intercalate (fun text htext hempty => ?_) fun text htext => ?_
    · obtain ⟨kept, hmem, rfl⟩ := List.mem_map.mp htext
      have hlist := congrArg String.toList hempty
      rw [toList_line] at hlist
      cases hlist
    · obtain ⟨kept, hmem, rfl⟩ := List.mem_map.mp htext
      exact noBreak_line (hkept kept hmem).2
  have hread : ∀ lines : List (Chunk × String), (∀ kept ∈ lines, kept.2 ≠ "" ∧ Neat kept.2.toList) →
      ((lines.map fun kept => line kept.1 kept.2).filterMap parsedLine).map Prod.fst =
        lines.map fun kept => kept.1.sequenceNumber := by
    intro lines hlines
    induction lines with
    | nil => rfl
    | cons kept rest ih =>
      rw [List.forall_mem_cons] at hlines
      obtain ⟨read, hparsed⟩ := @parsedLine_line kept.1 kept.2 hlines.1.1 hlines.1.2
      rw [List.map_cons, List.filterMap_cons_some hparsed, List.map_cons, ih hlines.2,
        List.map_cons]
  have hentries := hread _ hkept
  rw [parsedSemanticSequences, hsplit, Keyed.foldl_replaceOrAppend_of_nodup, List.nil_append,
    hentries]
  rw [List.nil_append, hentries]
  exact hdistinct

end AiBuddy.Conversation.SemanticInput
