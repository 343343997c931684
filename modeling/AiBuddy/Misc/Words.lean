import Mathlib.Data.List.TakeWhile
import AiBuddy.Misc.Text

/-!
# Words and lines of a text

The words of a text are its non-empty runs without white space. They do not depend on how the
text is cut at white space: lines, stripping and joining with single blanks keep them.
-/

namespace Text

def wordsOf (cs : List Char) : List (List Char) :=
  (cs.splitOnP isSpace).filter fun word => !word.isEmpty

def joinWords : List (List Char) → List Char
  | [] => []
  | [word] => word
  | word :: rest => word ++ ' ' :: joinWords rest

/-- Where Python's `str.splitlines` breaks a line. -/
def isLineBreak (c : Char) : Bool :=
  let n := c.toNat
  (10 ≤ n && n ≤ 13) || (28 ≤ n && n ≤ 30) || n == 0x85 || n == 0x2028 || n == 0x2029

def linesFrom : List Char → List Char → List (List Char)
  | line, [] => if line = [] then [] else [line.reverse]
  | line, '\r' :: '\n' :: cs => line.reverse :: linesFrom [] cs
  | line, c :: cs =>
    if isLineBreak c then line.reverse :: linesFrom [] cs else linesFrom (c :: line) cs

def splitLines (text : String) : List String := (linesFrom [] text.toList).map String.ofList

def trimEnd (cs : List Char) : List Char := (cs.reverse.dropWhile isSpace).reverse

def trim (cs : List Char) : List Char := trimEnd (cs.dropWhile isSpace)

variable (text : String)

theorem toList_strip : (strip text).toList = trim text.toList :=
  String.toList_ofList

theorem fields_eq : fields text = (wordsOf text.toList).map String.ofList := by
  simp [fields, runs, wordsOf]

@[simp] theorem wordsOf_nil : wordsOf [] = [] := rfl

variable {c : Char}

theorem wordsOf_append_space (hc : isSpace c = true) (xs ys : List Char) :
    wordsOf (xs ++ c :: ys) = wordsOf xs ++ wordsOf ys := by
  rw [wordsOf, List.splitOnP_append_cons xs ys hc, List.filter_append]
  rfl

theorem wordsOf_cons_space (hc : isSpace c = true) (cs : List Char) :
    wordsOf (c :: cs) = wordsOf cs := wordsOf_append_space hc [] cs

variable {word : List Char}

theorem wordsOf_word (hne : word ≠ []) (h : ∀ c ∈ word, isSpace c = false) :
    wordsOf word = [word] := by
  rw [wordsOf, List.splitOnP_eq_singleton h]
  cases word with
  | nil => exact absurd rfl hne
  | cons c cs => rfl

variable {cs : List Char}

theorem wordsOf_spaces (h : ∀ c ∈ cs, isSpace c = true) : wordsOf cs = [] := by
  induction cs with
  | nil => rfl
  | cons c cs ih =>
    rw [wordsOf_cons_space (h c List.mem_cons_self)]
    exact ih fun d hd => h d (List.mem_cons_of_mem _ hd)

variable {rest : List Char}

theorem wordsOf_word_append (hne : word ≠ []) (h : ∀ c ∈ word, isSpace c = false)
    (hrest : ∀ c ∈ rest.head?, isSpace c = true) :
    wordsOf (word ++ rest) = word :: wordsOf rest := by
  cases rest with
  | nil => rw [List.append_nil, wordsOf_word hne h, wordsOf_nil]
  | cons c cs =>
    have hc : isSpace c = true := hrest c rfl
    rw [wordsOf_append_space hc, wordsOf_word hne h, wordsOf_cons_space hc, List.singleton_append]

theorem wordsOf_dropWhile {cs : List Char} : wordsOf (cs.dropWhile isSpace) = wordsOf cs := by
  induction cs with
  | nil => rfl
  | cons c cs ih =>
    cases hc : isSpace c with
    | true => rw [List.dropWhile_cons_of_pos hc, wordsOf_cons_space hc, ih]
    | false => rw [List.dropWhile_cons_of_neg (by simp [hc])]

theorem trimEnd_append_spaces (cs : List Char) :
    ∃ spaces, (∀ c ∈ spaces, isSpace c = true) ∧ cs = trimEnd cs ++ spaces := by
  refine ⟨(cs.reverse.takeWhile isSpace).reverse, ?_, ?_⟩
  · intro c hc
    exact List.mem_takeWhile_imp (List.mem_reverse.mp hc)
  · rw [trimEnd, ← List.reverse_append, List.takeWhile_append_dropWhile, List.reverse_reverse]

theorem wordsOf_trimEnd (cs : List Char) : wordsOf (trimEnd cs) = wordsOf cs := by
  obtain ⟨spaces, hspaces, heq⟩ := trimEnd_append_spaces cs
  cases spaces with
  | nil => rw [List.append_nil] at heq; rw [← heq]
  | cons c rest =>
    rw [List.forall_mem_cons] at hspaces
    conv_rhs => rw [heq]
    rw [wordsOf_append_space hspaces.1, wordsOf_spaces hspaces.2, List.append_nil]

@[simp] theorem wordsOf_trim (cs : List Char) : wordsOf (trim cs) = wordsOf cs := by
  rw [trim, wordsOf_trimEnd, wordsOf_dropWhile]

theorem wordsOf_strip : wordsOf (strip text).toList = wordsOf text.toList := by
  rw [toList_strip, wordsOf_trim]

theorem mem_wordsOf (h : word ∈ wordsOf cs) : word ≠ [] ∧ ∀ c ∈ word, isSpace c = false := by
  induction hn : cs.length using Nat.strong_induction_on generalizing cs with
  | _ n ih =>
  cases hcs : cs.dropWhile (fun c => !isSpace c) with
  | nil =>
    have hword : ∀ c ∈ cs, isSpace c = false := by
      simpa [List.dropWhile_eq_nil_iff] using hcs
    cases cs with
    | nil => simp at h
    | cons c rest =>
      rw [wordsOf_word (List.cons_ne_nil _ _) hword, List.mem_singleton] at h
      exact h ▸ ⟨List.cons_ne_nil _ _, hword⟩
  | cons c rest =>
    have hspace : isSpace c = true := by
      have hhead := List.head?_dropWhile_not (fun c => !isSpace c) cs
      rw [hcs] at hhead
      simpa using hhead
    have heq : cs = cs.takeWhile (fun c => !isSpace c) ++ c :: rest := by
      rw [← hcs, List.takeWhile_append_dropWhile]
    have hfirst : ∀ c ∈ cs.takeWhile (fun c => !isSpace c), isSpace c = false := by
      intro c hc
      simpa using List.mem_takeWhile_imp hc
    rw [heq, wordsOf_append_space hspace, List.mem_append] at h
    rcases h with h | h
    · by_cases hnil : cs.takeWhile (fun c => !isSpace c) = []
      · rw [hnil, wordsOf_nil] at h
        cases h
      · rw [wordsOf_word hnil hfirst, List.mem_singleton] at h
        exact h ▸ ⟨hnil, hfirst⟩
    · refine ih rest.length ?_ h rfl
      have hlength := congrArg List.length heq
      rw [List.length_append, List.length_cons] at hlength
      omega

theorem joinWords_cons {word : List Char} {rest : List (List Char)} (h : rest ≠ []) :
    joinWords (word :: rest) = word ++ ' ' :: joinWords rest := by
  cases rest with
  | nil => exact absurd rfl h
  | cons next more => rfl

theorem joinWords_append {front back : List (List Char)} (hfront : front ≠ []) (hback : back ≠ []) :
    joinWords (front ++ back) = joinWords front ++ ' ' :: joinWords back := by
  induction front with
  | nil => exact absurd rfl hfront
  | cons word rest ih =>
    cases rest with
    | nil => exact joinWords_cons hback
    | cons next more =>
      rw [List.cons_append, joinWords_cons (by simp), ih (List.cons_ne_nil _ _),
        joinWords_cons (List.cons_ne_nil _ _), List.append_assoc, List.cons_append]

theorem wordsOf_joinWords {words : List (List Char)}
    (h : ∀ word ∈ words, word ≠ [] ∧ ∀ c ∈ word, isSpace c = false) :
    wordsOf (joinWords words) = words := by
  induction words with
  | nil => rfl
  | cons word rest ih =>
    rw [List.forall_mem_cons] at h
    cases rest with
    | nil => exact wordsOf_word h.1.1 h.1.2
    | cons next rest =>
      rw [joinWords_cons (List.cons_ne_nil _ _), wordsOf_append_space (by decide),
        wordsOf_word h.1.1 h.1.2, ih h.2, List.singleton_append]

theorem isSpace_of_isLineBreak (h : isLineBreak c = true) : isSpace c = true := by
  simp only [isLineBreak, Bool.or_eq_true, Bool.and_eq_true, decide_eq_true_eq, beq_iff_eq] at h
  simp only [isSpace, Bool.or_eq_true, Bool.and_eq_true, decide_eq_true_eq, beq_iff_eq]
  omega

theorem flatMap_linesFrom (line cs : List Char) :
    (linesFrom line cs).flatMap wordsOf = wordsOf (line.reverse ++ cs) := by
  induction line, cs using linesFrom.induct with
  | case1 => rfl
  | case2 line hline =>
    rw [linesFrom, if_neg hline, List.append_nil, List.flatMap_singleton]
  | case3 line cs ih =>
    rw [linesFrom, List.flatMap_cons, ih, wordsOf_append_space (by decide),
      wordsOf_cons_space (by decide)]
    rfl
  | case4 line c cs hnot hbreak ih =>
    rw [linesFrom.eq_3 line c cs hnot, if_pos hbreak, List.flatMap_cons, ih,
      wordsOf_append_space (isSpace_of_isLineBreak hbreak)]
    rfl
  | case5 line c cs hnot hbreak ih =>
    rw [linesFrom.eq_3 line c cs hnot, if_neg hbreak, ih, List.reverse_cons, List.append_assoc,
      List.singleton_append]

theorem mem_joinWords {words : List (List Char)} (h : c ∈ joinWords words) :
    c = ' ' ∨ ∃ word ∈ words, c ∈ word := by
  induction words with
  | nil => cases h
  | cons word rest ih =>
    by_cases hrest : rest = []
    · rw [hrest] at h
      exact .inr ⟨word, List.mem_cons_self, h⟩
    · rw [joinWords_cons hrest, List.mem_append, List.mem_cons] at h
      rcases h with h | h | h
      · exact .inr ⟨word, List.mem_cons_self, h⟩
      · exact .inl h
      · refine (ih h).imp_right ?_
        rintro ⟨other, hother, hc⟩
        exact ⟨other, List.mem_cons_of_mem _ hother, hc⟩

theorem linesFrom_of_no_break {line : List Char} (h : ∀ c ∈ cs, isLineBreak c = false)
    (hne : line.reverse ++ cs ≠ []) : linesFrom line cs = [line.reverse ++ cs] := by
  induction line, cs using linesFrom.induct with
  | case1 => exact absurd rfl hne
  | case2 line hline => rw [linesFrom, if_neg hline, List.append_nil]
  | case3 line cs ih =>
    have hbreak := h '\r' List.mem_cons_self
    exact absurd hbreak (by decide)
  | case4 line c cs hnot hbreak ih =>
    rw [h c List.mem_cons_self] at hbreak
    cases hbreak
  | case5 line c cs hnot hbreak ih =>
    rw [linesFrom.eq_3 line c cs hnot, if_neg hbreak,
      ih (fun d hd => h d (List.mem_cons_of_mem _ hd)) (by simp), List.reverse_cons,
      List.append_assoc, List.singleton_append]

theorem linesFrom_append_newline {line : List Char} (h : ∀ c ∈ cs, isLineBreak c = false) :
    linesFrom line (cs ++ '\n' :: rest) = (line.reverse ++ cs) :: linesFrom [] rest := by
  induction cs generalizing line with
  | nil =>
    rw [List.nil_append, List.append_nil, linesFrom.eq_3 line '\n' rest (by simp),
      if_pos (by decide)]
  | cons c cs ih =>
    rw [List.forall_mem_cons] at h
    have hnot : ∀ more, c = '\r' → cs ++ '\n' :: rest = '\n' :: more → False := by
      rintro more rfl -
      exact absurd h.1 (by decide)
    rw [List.cons_append, linesFrom.eq_3 line c _ hnot, if_neg (by simp [h.1]), ih h.2,
      List.reverse_cons, List.append_assoc, List.singleton_append]

theorem splitLines_intercalate {lines : List String} (hne : ∀ line ∈ lines, line ≠ "")
    (h : ∀ line ∈ lines, ∀ c ∈ line.toList, isLineBreak c = false) :
    splitLines ("\n".intercalate lines) = lines := by
  induction lines with
  | nil => rfl
  | cons line rest ih =>
    rw [List.forall_mem_cons] at hne h
    have hfirst : line.toList ≠ [] := fun hnil => hne.1 (String.toList_eq_nil_iff.mp hnil)
    cases rest with
    | nil =>
      rw [String.intercalate_singleton, splitLines,
        linesFrom_of_no_break h.1 (by simpa using hfirst)]
      simp
    | cons next more =>
      have hrest := ih hne.2 h.2
      rw [String.intercalate_cons_cons, splitLines, String.toList_append, String.toList_append]
      change ((linesFrom [] (line.toList ++ ['\n'] ++ _)).map String.ofList) = _
      rw [List.append_assoc, List.singleton_append, linesFrom_append_newline h.1, List.map_cons]
      rw [splitLines] at hrest
      rw [hrest]
      simp

theorem toList_intercalate_blank (parts : List String) :
    (" ".intercalate parts).toList = joinWords (parts.map String.toList) := by
  induction parts with
  | nil => rfl
  | cons part rest ih =>
    cases rest with
    | nil => simp [joinWords]
    | cons next more =>
      rw [String.intercalate_cons_cons, String.toList_append, String.toList_append, ih,
        List.append_assoc]
      exact (joinWords_cons (List.cons_ne_nil _ _)).symm

theorem flatMap_splitLines :
    ((splitLines text).map String.toList).flatMap wordsOf = wordsOf text.toList := by
  rw [splitLines, List.map_map]
  simpa using flatMap_linesFrom [] text.toList

theorem fields_intercalate_newline (parts : List String) :
    fields ("\n".intercalate parts) = parts.flatMap fields := by
  induction parts with
  | nil => rfl
  | cons part rest ih =>
    cases rest with
    | nil => simp
    | cons next more =>
      have hlist : (part ++ "\n" ++ "\n".intercalate (next :: more)).toList =
          part.toList ++ '\n' :: ("\n".intercalate (next :: more)).toList := by simp
      rw [String.intercalate_cons_cons, List.flatMap_cons, ← ih, fields_eq, fields_eq, fields_eq,
        hlist, wordsOf_append_space (by decide), List.map_append]

theorem collapse_append_of_noSpace (h : ∀ c ∈ word, isSpace c = false) (rest : List Char) :
    collapse false (word ++ rest) = word ++ collapse false rest := by
  induction word with
  | nil => rfl
  | cons c cs ih =>
    rw [List.forall_mem_cons] at h
    rw [List.cons_append, collapse, if_neg (by simp [h.1]), ih h.2, List.cons_append]

theorem collapse_true {cs : List Char} :
    collapse true cs = collapse false (cs.dropWhile isSpace) := by
  induction cs with
  | nil => rfl
  | cons c cs ih =>
    cases hc : isSpace c with
    | true => rw [collapse, if_pos hc, if_pos rfl, ih, List.dropWhile_cons_of_pos hc]
    | false =>
      rw [List.dropWhile_cons_of_neg (by simp [hc]), collapse, collapse, if_neg (by simp [hc]),
        if_neg (by simp [hc])]

theorem dropWhile_collapse {p : Char → Bool} (hp : ∀ c, isSpace c = true → p c = true)
    (after : Bool) (cs : List Char) :
    (collapse after cs).dropWhile p = collapse false (cs.dropWhile p) := by
  have hblank : p ' ' = true := hp ' ' (by decide)
  induction cs generalizing after with
  | nil => rfl
  | cons c cs ih =>
    rw [collapse]
    cases hc : isSpace c with
    | true =>
      rw [if_pos rfl, List.dropWhile_cons_of_pos (hp c hc)]
      cases after with
      | true => rw [if_pos rfl, ih]
      | false => rw [if_neg (by simp), List.dropWhile_cons_of_pos hblank, ih]
    | false =>
      rw [if_neg (by simp)]
      cases hpc : p c with
      | true => rw [List.dropWhile_cons_of_pos hpc, List.dropWhile_cons_of_pos hpc, ih]
      | false =>
        rw [List.dropWhile_cons_of_neg (by simp [hpc]), List.dropWhile_cons_of_neg (by simp [hpc]),
          collapse, if_neg (by simp [hc])]

theorem span_collapse {p : Char → Bool} (hp : ∀ c, isSpace c = true → p c = false)
    (cs : List Char) :
    (collapse false cs).takeWhile p = cs.takeWhile p ∧
      (collapse false cs).dropWhile p = collapse false (cs.dropWhile p) := by
  have hblank : p ' ' = false := hp ' ' (by decide)
  induction cs with
  | nil => exact ⟨rfl, rfl⟩
  | cons c cs ih =>
    cases hc : isSpace c with
    | true =>
      have hpc := hp c hc
      simp [collapse, hc, hblank, hpc]
    | false =>
      cases hpc : p c with
      | true => simp [collapse, hc, hpc, ih]
      | false => simp [collapse, hc, hpc]

theorem exists_word_append (hc : isSpace c = false) (cs : List Char) :
    ∃ word rest, c :: cs = word ++ rest ∧ word ≠ [] ∧ (∀ d ∈ word, isSpace d = false) ∧
      (∀ d ∈ rest.head?, isSpace d = true) ∧ rest.length ≤ cs.length := by
  refine ⟨c :: cs.takeWhile (fun d => !isSpace d), cs.dropWhile (fun d => !isSpace d), ?_,
    List.cons_ne_nil _ _, ?_, ?_, (List.dropWhile_sublist _).length_le⟩
  · rw [List.cons_append, List.takeWhile_append_dropWhile]
  · rw [List.forall_mem_cons]
    refine ⟨hc, fun d hd => ?_⟩
    simpa using List.mem_takeWhile_imp hd
  · intro d hd
    have hhead := List.head?_dropWhile_not (fun d => !isSpace d) cs
    rw [Option.mem_def.mp hd] at hhead
    simpa using hhead

@[simp] theorem wordsOf_collapse (cs : List Char) : wordsOf (collapse false cs) = wordsOf cs := by
  induction hn : cs.length using Nat.strong_induction_on generalizing cs with
  | _ n ih =>
  cases cs with
  | nil => rfl
  | cons c cs =>
    rw [List.length_cons] at hn
    cases hc : isSpace c with
    | true =>
      have hle := (List.dropWhile_sublist isSpace (l := cs)).length_le
      rw [collapse, if_pos hc, if_neg (by simp), wordsOf_cons_space (by decide), collapse_true,
        ih _ (by omega) _ rfl, wordsOf_dropWhile, wordsOf_cons_space hc]
    | false =>
      obtain ⟨word, rest, heq, hne, hword, hrest, hle⟩ := exists_word_append hc cs
      have hcollapsed : ∀ d ∈ (collapse false rest).head?, isSpace d = true := by
        intro d hd
        cases rest with
        | nil => cases hd
        | cons e es =>
          rw [collapse, if_pos (hrest e rfl), if_neg (by simp)] at hd
          cases hd
          decide
      rw [heq, collapse_append_of_noSpace hword, wordsOf_word_append hne hword hcollapsed,
        wordsOf_word_append hne hword hrest, ih _ (by omega) _ rfl]

def Trimmed (cs : List Char) : Prop :=
  (∀ c ∈ cs.head?, isSpace c = false) ∧ ∀ c ∈ cs.getLast?, isSpace c = false

theorem head?_dropWhile_space (h : c ∈ (cs.dropWhile isSpace).head?) : isSpace c = false := by
  have hhead := List.head?_dropWhile_not isSpace cs
  rw [Option.mem_def.mp h] at hhead
  simpa using hhead

theorem trimmed_trim (cs : List Char) : Trimmed (trim cs) := by
  constructor
  · intro c hc
    obtain ⟨spaces, -, heq⟩ := trimEnd_append_spaces (cs.dropWhile isSpace)
    have hhead : c ∈ (cs.dropWhile isSpace).head? := by
      rw [trim] at hc
      rw [heq, List.head?_append, Option.mem_def.mp hc]
      rfl
    exact head?_dropWhile_space hhead
  · intro c hc
    rw [trim, trimEnd, List.getLast?_reverse] at hc
    exact head?_dropWhile_space hc

theorem dropWhile_spaces_append {spaces : List Char} (h : ∀ c ∈ spaces, isSpace c = true)
    (hrest : ∀ c ∈ rest.head?, isSpace c = false) :
    (spaces ++ rest).dropWhile isSpace = rest := by
  induction spaces with
  | nil =>
    cases rest with
    | nil => rfl
    | cons c cs => simp [hrest c rfl]
  | cons c spaces ih =>
    rw [List.forall_mem_cons] at h
    rw [List.cons_append, List.dropWhile_cons_of_pos h.1, ih h.2]

theorem trim_append_spaces {front text back : List Char} (h : Trimmed text) (hne : text ≠ [])
    (hfront : ∀ c ∈ front, isSpace c = true) (hback : ∀ c ∈ back, isSpace c = true) :
    trim (front ++ (text ++ back)) = text := by
  have hhead : ∀ c ∈ (text ++ back).head?, isSpace c = false := by
    rw [List.head?_append_of_ne_nil _ hne]
    exact h.1
  have hlast : ∀ c ∈ text.reverse.head?, isSpace c = false := by
    rw [List.head?_reverse]
    exact h.2
  rw [trim, dropWhile_spaces_append hfront hhead, trimEnd, List.reverse_append,
    dropWhile_spaces_append (fun c hc => hback c (List.mem_reverse.mp hc)) hlast,
    List.reverse_reverse]

theorem trim_of_trimmed {text : List Char} (h : Trimmed text) (hne : text ≠ []) :
    trim text = text := by
  have htrim := trim_append_spaces h hne (fun c (hc : c ∈ []) => by cases hc)
    (fun c (hc : c ∈ []) => by cases hc)
  rwa [List.append_nil, List.nil_append] at htrim

theorem collapse_eq_joinWords (h : Trimmed cs) : collapse false cs = joinWords (wordsOf cs) := by
  induction hn : cs.length using Nat.strong_induction_on generalizing cs with
  | _ n ih =>
  cases cs with
  | nil => rfl
  | cons first others =>
    have hfirst : isSpace first = false := h.1 first rfl
    have hspan : ∀ xs : List Char, xs.takeWhile (fun c => !isSpace c) ++
        xs.dropWhile (fun c => !isSpace c) = xs := fun xs => List.takeWhile_append_dropWhile
    have hword : ∀ c ∈ others.takeWhile (fun c => !isSpace c), isSpace c = false := by
      intro c hc
      simpa using List.mem_takeWhile_imp hc
    have hall : ∀ c ∈ first :: others.takeWhile (fun c => !isSpace c), isSpace c = false := by
      rw [List.forall_mem_cons]
      exact ⟨hfirst, hword⟩
    cases hrest : others.dropWhile (fun c => !isSpace c) with
    | nil =>
      have heq : first :: others = first :: others.takeWhile (fun c => !isSpace c) := by
        conv_lhs => rw [← hspan others, hrest, List.append_nil]
      have hcollapse := collapse_append_of_noSpace hall []
      rw [List.append_nil, collapse, List.append_nil] at hcollapse
      rw [heq, wordsOf_word (List.cons_ne_nil _ _) hall, hcollapse]
      rfl
    | cons c rest =>
      have heq : first :: others =
          (first :: others.takeWhile (fun c => !isSpace c)) ++ c :: rest := by
        rw [List.cons_append, ← hrest, hspan]
      have hc : isSpace c = true := by
        have hhead := List.head?_dropWhile_not (fun c => !isSpace c) others
        rw [hrest] at hhead
        simpa using hhead
      -- What follows the white space is not empty, since the text ends with a word.
      have hnext : rest.dropWhile isSpace ≠ [] := by
        intro hnil
        rw [List.dropWhile_eq_nil_iff] at hnil
        have hlast := h.2
        rw [heq, List.getLast?_append, List.getLast?_cons] at hlast
        have hmem : rest.getLast?.getD c ∈ c :: rest := by
          cases hl : rest.getLast? with
          | none => exact List.mem_cons_self
          | some d => exact List.mem_cons_of_mem _ (List.mem_of_getLast? hl)
        have hspace : isSpace (rest.getLast?.getD c) = true := by
          rcases List.mem_cons.mp hmem with hd | hd
          · rw [hd, hc]
          · exact hnil _ hd
        have hnot := hlast (rest.getLast?.getD c) (by simp)
        rw [hspace] at hnot
        cases hnot
      have htrimmed : Trimmed (rest.dropWhile isSpace) := by
        refine ⟨fun d hd => head?_dropWhile_space hd, ?_⟩
        intro d hd
        refine h.2 d ?_
        have hsuffix : rest.dropWhile isSpace <:+ first :: others := by
          rw [heq]
          exact (List.dropWhile_suffix _).trans
            ((List.suffix_cons c rest).trans (List.suffix_append _ _))
        obtain ⟨front, hfront⟩ := hsuffix
        rw [← hfront, List.getLast?_append, Option.mem_def.mp hd]
        rfl
      have hlength : (rest.dropWhile isSpace).length < n := by
        have hle := (List.dropWhile_sublist isSpace (l := rest)).length_le
        rw [← hn, heq, List.length_append, List.length_cons, List.length_cons]
        omega
      have hwords : wordsOf (first :: others) =
          (first :: others.takeWhile (fun c => !isSpace c)) ::
            wordsOf (rest.dropWhile isSpace) := by
        rw [heq, wordsOf_append_space hc, wordsOf_word (List.cons_ne_nil _ _) hall,
          wordsOf_dropWhile, List.singleton_append]
      have hjoin := ih _ hlength htrimmed rfl
      rw [hwords, heq, collapse_append_of_noSpace hall, collapse, if_pos hc, if_neg (by simp),
        collapse_true, hjoin]
      cases hnextWords : wordsOf (rest.dropWhile isSpace) with
      | cons word more => rfl
      | nil =>
        rw [hnextWords] at hjoin
        cases hne : rest.dropWhile isSpace with
        | nil => exact absurd hne hnext
        | cons d ds =>
          rw [hne] at hjoin htrimmed
          rw [collapse, if_neg (by simp [htrimmed.1 d rfl])] at hjoin
          cases hjoin

end Text
