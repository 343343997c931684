import AiBuddy.Misc.Words

/-!
# Patterns

The parts of Python's `re` that deterministic patterns need: letters matched with `re.IGNORECASE`,
optional parts, the shortest text up to a mark, the leftmost match, and `re.sub` with an empty
replacement. A pattern is a function from a text to what follows its match at the start.
-/

namespace Text

/-- A letter of a pattern against a character, with `re.IGNORECASE`. -/
def sameLetter (letter c : Char) : Bool :=
  c.toLower = letter || (letter = 's' && c = '\u017f') || (letter = 'k' && c = '\u212a') ||
    (letter = 'i' && (c = '\u0130' || c = '\u0131'))

def dropLetters : List Char → List Char → Option (List Char)
  | [], cs => some cs
  | letter :: letters, c :: cs => if sameLetter letter c then dropLetters letters cs else none
  | _ :: _, [] => none

def dropOne (p : Char → Bool) : List Char → List Char
  | c :: cs => if p c then cs else c :: cs
  | [] => []

def dropOptional (letters cs : List Char) : List Char := (dropLetters letters cs).getD cs

variable {α : Type}

def search? (at? : List Char → Option α) : List Char → Option α
  | [] => at? []
  | c :: cs => (at? (c :: cs)).or (search? at? cs)

/-- The position that Python `text.find(marker)` gives. -/
def find? (marker : List Char) : List Char → Option Nat
  | [] => if marker = [] then some 0 else none
  | c :: cs =>
    if marker.isPrefixOf (c :: cs) then some 0 else (find? marker cs).map (· + 1)

def until? (mark? : List Char → Option (List Char)) : List Char → Option (List Char × List Char)
  | [] => (mark? []).map ([], ·)
  | c :: cs =>
    match mark? (c :: cs) with
    | some rest => some ([], rest)
    | none => (until? mark? cs).map fun found => (c :: found.1, found.2)

/-- `re.sub(pattern, "", text)`, where so many characters of the last match are still to come. -/
def removeFrom (at? : List Char → Option (List Char)) : Nat → List Char → List Char
  | _, [] => []
  | skip + 1, _ :: cs => removeFrom at? skip cs
  | 0, c :: cs =>
    match at? (c :: cs) with
    | some rest => removeFrom at? (cs.length - rest.length) cs
    | none => c :: removeFrom at? 0 cs

/-- `re.sub(pattern, "", text)`. -/
def removeMatches (at? : List Char → Option (List Char)) (cs : List Char) : List Char :=
  removeFrom at? 0 cs

variable {cs : List Char}

theorem removeMatches_of_none {at? : List Char → Option (List Char)}
    (h : ∀ rest, rest <:+ cs → at? rest = none) : removeMatches at? cs = cs := by
  unfold removeMatches
  induction cs with
  | nil => rfl
  | cons c cs ih =>
    rw [removeFrom, h (c :: cs) (List.suffix_refl _)]
    dsimp only
    rw [ih fun rest hrest => h rest (hrest.trans (List.suffix_cons c cs))]

theorem search?_eq_none {at? : List Char → Option α} (h : ∀ rest, rest <:+ cs → at? rest = none) :
    search? at? cs = none := by
  induction cs with
  | nil => exact h [] (List.suffix_refl _)
  | cons c cs ih =>
    rw [search?, h (c :: cs) (List.suffix_refl _), Option.none_or,
      ih fun rest hrest => h rest (hrest.trans (List.suffix_cons c cs))]

variable {c : Char}

theorem sameLetter_space {letter : Char} (hletter : isSpace letter = false)
    (hc : isSpace c = true) : sameLetter letter c = false := by
  have hlower : c.toLower = c := by
    unfold Char.toLower
    split
    next h =>
      exfalso
      have hbounds : 65 ≤ c.toNat ∧ c.toNat ≤ 90 := h
      simp only [isSpace, Bool.or_eq_true, Bool.and_eq_true, decide_eq_true_eq, beq_iff_eq] at hc
      omega
    next => rfl
  have hne : c ≠ letter := fun heq => by rw [heq, hletter] at hc; cases hc
  have hs : c ≠ '\u017f' := fun heq => by rw [heq] at hc; exact absurd hc (by decide)
  have hk : c ≠ '\u212a' := fun heq => by rw [heq] at hc; exact absurd hc (by decide)
  have hdotted : c ≠ '\u0130' := fun heq => by rw [heq] at hc; exact absurd hc (by decide)
  have hdotless : c ≠ '\u0131' := fun heq => by rw [heq] at hc; exact absurd hc (by decide)
  simp [sameLetter, hlower, hne, hs, hk, hdotted, hdotless]

variable {letters rest : List Char}

theorem dropLetters_append (h : dropLetters letters cs = some rest) (more : List Char) :
    dropLetters letters (cs ++ more) = some (rest ++ more) := by
  induction letters generalizing cs with
  | nil =>
    rw [dropLetters, Option.some.injEq] at h
    rw [dropLetters, h]
  | cons letter letters ih =>
    cases cs with
    | nil => cases h
    | cons c cs =>
      rw [dropLetters] at h
      rw [List.cons_append, dropLetters]
      split at h
      next hsame => rw [if_pos hsame, ih h]
      next => cases h

theorem dropLetters_collapse (h : ∀ l ∈ letters, isSpace l = false) (cs : List Char) :
    dropLetters letters (collapse false cs) = (dropLetters letters cs).map (collapse false) := by
  induction letters generalizing cs with
  | nil => simp [dropLetters]
  | cons letter rest ih =>
    rw [List.forall_mem_cons] at h
    cases cs with
    | nil => rfl
    | cons c cs =>
      cases hc : isSpace c with
      | true =>
        have hblank : isSpace ' ' = true := by decide
        simp [collapse, dropLetters, hc, sameLetter_space h.1 hc, sameLetter_space h.1 hblank]
      | false =>
        rw [collapse, if_neg (by simp [hc]), dropLetters, dropLetters]
        split
        · exact ih h.2 cs
        · rfl

variable {p : Char → Bool}

theorem dropOne_collapse (hp : ∀ c, isSpace c = true → p c = false) (cs : List Char) :
    dropOne p (collapse false cs) = collapse false (dropOne p cs) := by
  cases cs with
  | nil => rfl
  | cons c cs =>
    have hblank : p ' ' = false := hp ' ' (by decide)
    cases hc : isSpace c with
    | true => simp [collapse, dropOne, hc, hblank, hp c hc]
    | false =>
      rw [collapse, if_neg (by simp [hc]), dropOne, dropOne]
      split
      · rfl
      · rw [collapse, if_neg (by simp [hc])]

theorem dropOne_append (h : cs ≠ []) (more : List Char) :
    dropOne p (cs ++ more) = dropOne p cs ++ more := by
  cases cs with
  | nil => exact absurd rfl h
  | cons c cs =>
    rw [List.cons_append, dropOne, dropOne]
    split <;> rfl

def Breaks (c : Char) (at? : List Char → Option (List Char)) : Prop :=
  ∀ front back, at? (front ++ c :: back) = (at? front).map (· ++ c :: back)

theorem breaks_dropLetters (h : ∀ letter ∈ letters, sameLetter letter c = false) :
    Breaks c (dropLetters letters) := by
  intro front back
  induction letters generalizing front with
  | nil => rfl
  | cons letter letters ih =>
    rw [List.forall_mem_cons] at h
    cases front with
    | nil => rw [List.nil_append, dropLetters, if_neg (by simp [h.1]), dropLetters, Option.map_none]
    | cons d front =>
      rw [List.cons_append, dropLetters, dropLetters]
      split
      · exact ih h.2 front
      · rfl

theorem dropOptional_break (h : ∀ letter ∈ letters, sameLetter letter c = false)
    (front back : List Char) :
    dropOptional letters (front ++ c :: back) = dropOptional letters front ++ c :: back := by
  rw [dropOptional, dropOptional, breaks_dropLetters h]
  cases dropLetters letters front <;> rfl

theorem dropOne_break (h : p c = false) (front back : List Char) :
    dropOne p (front ++ c :: back) = dropOne p front ++ c :: back := by
  cases front with
  | nil => simp [dropOne, h]
  | cons d front =>
    rw [List.cons_append, dropOne, dropOne]
    split <;> rfl

theorem Breaks.bind {first second : List Char → Option (List Char)} (h : Breaks c first)
    (hsecond : Breaks c second) :
    Breaks c fun cs => (first cs).bind second := by
  intro front back
  dsimp only
  rw [h]
  cases first front with
  | none => rfl
  | some rest => exact hsecond rest back

def span? (opening? closing? : List Char → Option (List Char)) (cs : List Char) :
    Option (List Char) :=
  (opening? cs).bind fun inside => (until? closing? inside).map (·.2)

variable {mark? : List Char → Option (List Char)}

theorem exists_of_until? {found : List Char × List Char} (h : until? mark? cs = some found) :
    ∃ part, part <:+ cs ∧ mark? part = some found.2 := by
  induction cs generalizing found with
  | nil =>
    rw [until?, Option.map_eq_some_iff] at h
    obtain ⟨rest, hrest, rfl⟩ := h
    exact ⟨[], List.suffix_refl _, hrest⟩
  | cons c cs ih =>
    rw [until?] at h
    cases hmark : mark? (c :: cs) with
    | some rest =>
      rw [hmark] at h
      cases h
      exact ⟨c :: cs, List.suffix_refl _, hmark⟩
    | none =>
      rw [hmark] at h
      dsimp only at h
      rw [Option.map_eq_some_iff] at h
      obtain ⟨later, hlater, rfl⟩ := h
      obtain ⟨part, hpart, hmark⟩ := ih hlater
      exact ⟨part, hpart.trans (List.suffix_cons c cs), hmark⟩

variable {part : List Char}

theorem until?_ne_none (hpart : part <:+ cs) (h : mark? part = some rest) :
    until? mark? cs ≠ none := by
  induction cs with
  | nil =>
    rw [List.suffix_nil] at hpart
    rw [hpart] at h
    simp [until?, h]
  | cons c cs ih =>
    rw [until?]
    cases hmark : mark? (c :: cs) with
    | some _ => simp
    | none =>
      rcases List.suffix_cons_iff.mp hpart with rfl | hpart
      · rw [hmark] at h
        cases h
      · simpa using ih hpart

variable {front back : List Char}

theorem until?_append (hfront : ∀ part, part <:+ front → part ≠ [] → mark? (part ++ back) = none)
    (hback : mark? back = some rest) : until? mark? (front ++ back) = some (front, rest) := by
  induction front with
  | nil =>
    cases back with
    | nil => rw [List.nil_append, until?, hback, Option.map_some]
    | cons c cs =>
      rw [List.nil_append, until?, hback]
  | cons c front ih =>
    have hnone := hfront (c :: front) (List.suffix_refl _) (List.cons_ne_nil _ _)
    rw [List.cons_append] at hnone ⊢
    rw [until?, hnone, ih fun part hpart => hfront part (hpart.trans (List.suffix_cons c front))]
    rfl

theorem suffix_append_cases (h : part <:+ front ++ back) :
    part <:+ back ∨ ∃ rest, rest <:+ front ∧ part = rest ++ back := by
  induction front with
  | nil => exact .inl h
  | cons c front ih =>
    rcases List.suffix_cons_iff.mp h with rfl | h
    · exact .inr ⟨c :: front, List.suffix_refl _, rfl⟩
    · rcases ih h with h | ⟨rest, hrest, rfl⟩
      · exact .inl h
      · exact .inr ⟨rest, hrest.trans (List.suffix_cons c front), rfl⟩

/-- A mark that is in none of three texts is not in them together either, where no match crosses the
first and the last character of the one in the middle. -/
theorem mark?_around {first last : Char} {middle : List Char} (hfirst : Breaks first mark?)
    (hlast : Breaks last mark?) (hfront : ∀ part, part <:+ front → mark? part = none)
    (hmiddle : ∀ part, part <:+ first :: middle → mark? part = none)
    (hback : ∀ part, part <:+ back → mark? part = none)
    (hpart : part <:+ front ++ first :: (middle ++ last :: back)) :
    mark? part = none := by
  rcases suffix_append_cases hpart with hpart | ⟨rest, hrest, rfl⟩
  · rw [← List.cons_append] at hpart
    rcases suffix_append_cases hpart with hpart | ⟨rest, hrest, rfl⟩
    · rcases List.suffix_cons_iff.mp hpart with rfl | hpart
      · have hnil := hlast [] back
        rwa [hback [] List.nil_suffix, Option.map_none] at hnil
      · exact hback part hpart
    · rw [hlast, hmiddle rest hrest, Option.map_none]
  · rw [hfirst, hfront rest hrest, Option.map_none]

/-- A text without spans has none among other texts either, where nothing opens before it, nothing
opens or closes after it, and its first and last characters are crossed by no match. -/
theorem span?_around {opening? closing? : List Char → Option (List Char)} {first last : Char}
    {middle : List Char} (hfirst : Breaks first opening?) (hopening : Breaks last opening?)
    (hclosing : Breaks last closing?) (hfront : ∀ part, part <:+ front → opening? part = none)
    (hback : ∀ part, part <:+ back → opening? part = none ∧ closing? part = none)
    (hmiddle : ∀ part, part <:+ first :: (middle ++ [last]) → span? opening? closing? part = none)
    (hpart : part <:+ front ++ first :: (middle ++ last :: back)) :
    span? opening? closing? part = none := by
  have hnil := hback [] (List.nil_suffix)
  have hlast : ∀ {mark? : List Char → Option (List Char)}, Breaks last mark? → mark? [] = none →
      mark? (last :: back) = none := by
    intro mark? hbreaks hmark
    have h := hbreaks [] back
    rwa [hmark, Option.map_none] at h
  rcases suffix_append_cases hpart with hpart | ⟨rest, hrest, rfl⟩
  · rw [← List.cons_append] at hpart
    rcases suffix_append_cases hpart with hpart | ⟨rest, hrest, rfl⟩
    · rw [span?]
      rcases List.suffix_cons_iff.mp hpart with rfl | hpart
      · rw [hlast hopening hnil.1, Option.bind_none]
      · rw [(hback part hpart).1, Option.bind_none]
    · -- An opening inside of the text: its closing would be inside too.
      by_contra hsome
      obtain ⟨found, hfound⟩ := Option.ne_none_iff_exists'.mp hsome
      rw [span?, hopening] at hfound
      cases hinside : opening? rest with
      | none =>
        rw [hinside] at hfound
        cases hfound
      | some inside =>
        rw [hinside, Option.map_some, Option.bind_some, Option.map_eq_some_iff] at hfound
        obtain ⟨pair, hpair, -⟩ := hfound
        obtain ⟨close, hclose, hmark⟩ := exists_of_until? hpair
        rcases suffix_append_cases hclose with hclose | ⟨inner, hinner, rfl⟩
        · rcases List.suffix_cons_iff.mp hclose with rfl | hclose
          · rw [hlast hclosing hnil.2] at hmark
            cases hmark
          · rw [(hback close hclose).2] at hmark
            cases hmark
        · rw [hclosing] at hmark
          obtain ⟨tail, htail, -⟩ := Option.map_eq_some_iff.mp hmark
          have hinnerMark := hclosing inner []
          rw [htail, Option.map_some] at hinnerMark
          have huntil : until? closing? (inside ++ [last]) ≠ none := by
            obtain ⟨before, rfl⟩ := hinner
            refine until?_ne_none ?_ hinnerMark
            exact ⟨before, by simp⟩
          have hnone := hmiddle (rest ++ [last]) (by
            obtain ⟨before, hbefore⟩ := hrest
            exact ⟨before, by rw [← List.append_assoc, hbefore]; rfl⟩)
          rw [span?, hopening, hinside, Option.map_some, Option.bind_some,
            Option.map_eq_none_iff] at hnone
          exact huntil hnone
  · rw [span?, hfirst, hfront rest hrest, Option.map_none, Option.bind_none]

end Text
