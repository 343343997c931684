import AiBuddy.MeetingPipeline.Windows

/-!
# Speaker labels and the words of a turn

What `split_speaker_label` sets aside depends on a line's words only, and it is the same for every
longer line. So the words of an oversize turn can be followed from its lines to its fragments.
-/

namespace AiBuddy.MeetingPipeline

open Text

def labelRest? (cs : List Char) : Option (List Char) :=
  ((speakerPrefix? cs).map (·.2)).filter (· ≠ [])

variable {c : Char}

theorem notSpace_of_ne {d : Char} (hd : isSpace d = false) (hc : isSpace c = true) :
    decide (c = d) = false := by
  rw [decide_eq_false_iff_not]
  rintro rfl
  rw [hd] at hc
  cases hc

theorem afterNumber_collapse {cs : List Char} :
    afterNumber (collapse false cs) = collapse false (afterNumber cs) := by
  have hcolon : ∀ c, isSpace c = true → (decide (c = ':') || decide (c = '-')) = false := by
    intro c hc
    rw [notSpace_of_ne (by decide) hc, notSpace_of_ne (by decide) hc]
    rfl
  have hclose : ∀ c, isSpace c = true → decide (c = ']') = false :=
    fun c hc => notSpace_of_ne (by decide) hc
  unfold afterNumber
  rw [dropWhile_collapse (fun _ hc => hc), dropOne_collapse hclose,
    dropWhile_collapse (fun _ hc => hc), dropOne_collapse hcolon,
    dropWhile_collapse (fun _ hc => hc)]

theorem isDigit_space (hc : isSpace c = true) : c.isDigit = false := by
  simp only [isSpace, Bool.or_eq_true, Bool.and_eq_true, decide_eq_true_eq, beq_iff_eq] at hc
  rw [Bool.eq_false_iff]
  intro hdigit
  have hbounds : 48 ≤ c.toNat ∧ c.toNat ≤ 57 := by
    simpa [Char.isDigit, UInt32.le_iff_toNat_le] using hdigit
  omega

theorem isGap_space (hc : isSpace c = true) : isGap c = true := by
  simp [isGap, hc]

theorem speakerPrefix?_collapse {cs : List Char} :
    speakerPrefix? (collapse false cs) =
      (speakerPrefix? cs).map fun found => (found.1, collapse false found.2) := by
  have hopen : ∀ c, isSpace c = true → decide (c = '[') = false :=
    fun c hc => notSpace_of_ne (by decide) hc
  unfold speakerPrefix?
  rw [dropOne_collapse hopen, dropWhile_collapse (fun _ hc => hc),
    dropLetters_collapse (List.forall_iff_forall_mem.mp (by decide))]
  cases dropLetters "speaker".toList
      ((dropOne (fun c => decide (c = '[')) cs).dropWhile isSpace) with
  | none => rfl
  | some named =>
    simp only [Option.map_some, Option.bind_some]
    rw [dropWhile_collapse (fun _ hc => isGap_space hc),
      (span_collapse (fun _ hc => isDigit_space hc) _).1,
      (span_collapse (fun _ hc => isDigit_space hc) _).2, afterNumber_collapse]
    split <;> rfl

variable {cs : List Char}

theorem collapse_eq_nil_iff : collapse false cs = [] ↔ cs = [] := by
  cases cs with
  | nil => simp [collapse]
  | cons c cs =>
    cases hc : isSpace c <;> simp [collapse, hc]

theorem labelRest?_collapse (cs : List Char) :
    labelRest? (collapse false cs) = (labelRest? cs).map (collapse false) := by
  rw [labelRest?, labelRest?, speakerPrefix?_collapse]
  cases speakerPrefix? cs with
  | none => rfl
  | some found =>
    by_cases h : found.2 = []
    · simp [Option.filter_some, h, collapse]
    · have hcollapsed : collapse false found.2 ≠ [] := fun heq => h (collapse_eq_nil_iff.mp heq)
      simp [Option.filter_some, h, hcollapsed]

variable {p : Char → Bool}

variable {more : List Char}

theorem dropWhile_append_left (h : cs.dropWhile p ≠ []) :
    (cs ++ more).dropWhile p = cs.dropWhile p ++ more := by
  rw [List.dropWhile_append, if_neg (by simpa using h)]

theorem ne_nil_of_dropWhile (h : cs.dropWhile p ≠ []) : cs ≠ [] := by
  rintro rfl
  exact h rfl

theorem ne_nil_of_dropOne (h : dropOne p cs ≠ []) : cs ≠ [] := by
  rintro rfl
  exact h rfl

theorem afterNumber_append (h : afterNumber cs ≠ []) :
    cs ≠ [] ∧ afterNumber (cs ++ more) = afterNumber cs ++ more := by
  unfold afterNumber at h ⊢
  have hfourth := ne_nil_of_dropWhile h
  have hthird := ne_nil_of_dropOne hfourth
  have hsecond := ne_nil_of_dropWhile hthird
  have hfirst := ne_nil_of_dropOne hsecond
  refine ⟨ne_nil_of_dropWhile hfirst, ?_⟩
  rw [dropWhile_append_left hfirst, dropOne_append hfirst, dropWhile_append_left hthird,
    dropOne_append hthird, dropWhile_append_left h]

theorem takeWhile_append_left (h : cs.dropWhile p ≠ []) :
    (cs ++ more).takeWhile p = cs.takeWhile p := by
  rw [List.takeWhile_append, if_neg]
  intro hlength
  have happend := congrArg List.length (List.takeWhile_append_dropWhile (p := p) (l := cs))
  rw [List.length_append, hlength] at happend
  exact h (List.length_eq_zero_iff.mp (by omega))

theorem speakerPrefix?_append {rest number : List Char}
    (h : speakerPrefix? cs = some (number, rest)) (hrest : rest ≠ []) :
    speakerPrefix? (cs ++ more) = some (number, rest ++ more) := by
  unfold speakerPrefix? at h ⊢
  rw [Option.bind_eq_some_iff] at h
  obtain ⟨named, hnamed, hnumber⟩ := h
  dsimp only at hnumber
  split at hnumber
  · cases hnumber
  next hdigits =>
  rw [Option.some.injEq, Prod.mk.injEq] at hnumber
  obtain ⟨rfl, rfl⟩ := hnumber
  have hopened : (dropOne (fun c => decide (c = '[')) cs).dropWhile isSpace ≠ [] := by
    intro hnil
    rw [hnil] at hnamed
    cases hnamed
  have hcs : cs ≠ [] := ne_nil_of_dropOne (ne_nil_of_dropWhile hopened)
  obtain ⟨hafter, happend⟩ := afterNumber_append hrest
  have hgap : named.dropWhile isGap ≠ [] := ne_nil_of_dropWhile hafter
  rw [dropOne_append hcs, dropWhile_append_left hopened, dropLetters_append hnamed,
    Option.bind_some, dropWhile_append_left hgap]
  dsimp only
  rw [takeWhile_append_left hafter, if_neg hdigits, dropWhile_append_left hafter, happend]

theorem labelRest?_append {rest : List Char} (h : labelRest? cs = some rest) :
    labelRest? (cs ++ more) = some (rest ++ more) := by
  rw [labelRest?, Option.filter_eq_some_iff, Option.map_eq_some_iff] at h
  obtain ⟨⟨⟨number, found⟩, hfound, rfl⟩, hne⟩ := h
  have hrest : found ≠ [] := by simpa using hne
  rw [labelRest?, speakerPrefix?_append hfound hrest]
  simp [hrest]

def Words (words : List (List Char)) : Prop :=
  ∀ word ∈ words, word ≠ [] ∧ ∀ c ∈ word, isSpace c = false

def spokenOf (words : List (List Char)) : List (List Char) :=
  match labelRest? (joinWords words) with
  | some rest => wordsOf rest
  | none => words

def readsAsLabel (words : List (List Char)) : Bool := (labelRest? (joinWords words)).isSome

theorem spokenOf_append {front back : List (List Char)} (hlabel : readsAsLabel front = true)
    (hback : Words back) : spokenOf (front ++ back) = spokenOf front ++ back := by
  rw [readsAsLabel, Option.isSome_iff_exists] at hlabel
  obtain ⟨rest, hrest⟩ := hlabel
  have hfront : front ≠ [] := by
    rintro rfl
    cases hrest
  cases back with
  | nil => rw [List.append_nil, List.append_nil]
  | cons word more =>
    rw [spokenOf, spokenOf, joinWords_append hfront (List.cons_ne_nil _ _),
      labelRest?_append hrest, hrest]
    change wordsOf (rest ++ ' ' :: joinWords (word :: more)) = wordsOf rest ++ word :: more
    rw [wordsOf_append_space (by decide), wordsOf_joinWords hback]

theorem spokenOf_of_not_label {words : List (List Char)} (h : readsAsLabel words = false) :
    spokenOf words = words := by
  rw [readsAsLabel, Option.isSome_eq_false_iff, Option.isNone_iff_eq_none] at h
  rw [spokenOf, h]

theorem spokenOf_prefix {first line rest others : List (List Char)}
    (heq : line ++ others = first ++ rest) (hline : readsAsLabel line = true)
    (hfirst : readsAsLabel first = true) (hothers : Words others) (hrest : Words rest) :
    spokenOf line ++ others = spokenOf first ++ rest := by
  rcases List.append_eq_append_iff.mp heq with ⟨more, rfl, rfl⟩ | ⟨more, rfl, rfl⟩
  · have hmore : Words more := fun word hword => hothers word (List.mem_append_left _ hword)
    rw [spokenOf_append hline hmore, List.append_assoc]
  · have hmore : Words more := fun word hword => hrest word (List.mem_append_left _ hword)
    rw [spokenOf_append hfirst hmore, List.append_assoc]

/-- The words of the lines are spoken in the fragments: the fragments after the first must not
begin like a label, the first one only if the first line does, and no label may be glued to the
next word unless it begins the first fragment. -/
theorem spokenOf_fragments {line first : List (List Char)}
    {lines fragments : List (List (List Char))}
    (heq : line ++ lines.flatten = first ++ fragments.flatten)
    (hlines : Words lines.flatten) (hfragments : Words fragments.flatten)
    (hlater : ∀ fragment ∈ fragments, readsAsLabel fragment = false)
    (hfirst : readsAsLabel first = true → readsAsLabel line = true)
    (hline : readsAsLabel first = false → (spokenOf line).Sublist line)
    (happart : ∀ other ∈ lines, (spokenOf other).Sublist other) :
    (spokenOf line ++ lines.flatMap spokenOf).Sublist
      (spokenOf first ++ fragments.flatMap spokenOf) := by
  have hspoken : fragments.flatMap spokenOf = fragments.flatten := by
    rw [List.flatMap_def, List.map_congr_left fun fragment hmem =>
      spokenOf_of_not_label (hlater fragment hmem), List.map_id']
  have hothers : (lines.flatMap spokenOf).Sublist lines.flatten := by
    clear heq hlines
    induction lines with
    | nil => simp
    | cons other rest ih =>
      rw [List.forall_mem_cons] at happart
      exact happart.1.append (ih happart.2)
  rw [hspoken]
  cases hlabel : readsAsLabel first with
  | true =>
    rw [← spokenOf_prefix heq (hfirst hlabel) hlabel hlines hfragments]
    exact (List.Sublist.refl _).append hothers
  | false =>
    rw [spokenOf_of_not_label hlabel, ← heq]
    exact (hline hlabel).append hothers

end AiBuddy.MeetingPipeline
