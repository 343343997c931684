import AiBuddy.Misc.Json
import AiBuddy.Misc.Words

/-!
# The decoder and the grammar

What `Json.loads` reads is a text of the grammar, with blanks around it, and it reads every such
text to the value that the grammar gives.
-/

namespace Json

theorem span_append {p : Char → Bool} {front rest : List Char} (h : ∀ c ∈ front, p c = true)
    (hrest : ∀ c ∈ rest.head?, p c = false) :
    (front ++ rest).takeWhile p = front ∧ (front ++ rest).dropWhile p = rest := by
  induction front with
  | nil =>
    cases rest with
    | nil => exact ⟨rfl, rfl⟩
    | cons c cs =>
      have hc := hrest c rfl
      simp [hc]
  | cons c cs ih =>
    rw [List.forall_mem_cons] at h
    obtain ⟨htake, hdrop⟩ := ih h.2
    simp [h.1, htake, hdrop]

theorem digits_takeWhile {cs : List Char} (h : cs.takeWhile Char.isDigit ≠ []) :
    Digits (cs.takeWhile Char.isDigit) :=
  ⟨h, fun _ hc => List.mem_takeWhile_imp hc⟩

theorem integer?_sound {cs int rest : List Char} (h : integer? cs = some (int, rest)) :
    cs = int ++ rest ∧ IsInteger int := by
  unfold integer? at h
  split at h
  next zeros =>
    simp only [Option.some.injEq, Prod.mk.injEq] at h
    obtain ⟨rfl, rfl⟩ := h
    exact ⟨rfl, .inl rfl⟩
  next c cs hzero =>
    split at h
    next hdigit =>
      simp only [Option.some.injEq, Prod.mk.injEq] at h
      obtain ⟨rfl, rfl⟩ := h
      refine ⟨List.takeWhile_append_dropWhile.symm, .inr ⟨digits_takeWhile ?_, ?_⟩⟩
      · simp [hdigit]
      · rw [List.takeWhile_cons_of_pos hdigit, List.head?_cons]
        intro heq
        cases heq
        exact hzero rfl
    next => cases h
  next => cases h

theorem integer?_complete {int rest : List Char} (h : IsInteger int)
    (hrest : ∀ c ∈ rest.head?, c.isDigit = false) : integer? (int ++ rest) = some (int, rest) := by
  rcases h with rfl | ⟨⟨hne, hdigits⟩, hzero⟩
  · rfl
  · cases int with
    | nil => exact absurd rfl hne
    | cons c cs =>
      obtain ⟨htake, hdrop⟩ := span_append hdigits hrest
      rw [List.cons_append] at htake hdrop ⊢
      have hc : c ≠ '0' := fun heq => hzero (by rw [heq]; rfl)
      unfold integer?
      split
      next heq =>
        cases heq
        exact absurd rfl hc
      next heq =>
        cases heq
        rw [if_pos (hdigits c List.mem_cons_self), htake, hdrop]
      next heq => cases heq

variable (cs : List Char)

theorem fraction_sound : cs = (fraction cs).1 ++ (fraction cs).2 ∧ IsFraction (fraction cs).1 := by
  unfold fraction
  split
  next rest =>
    split
    next => exact ⟨rfl, .inl rfl⟩
    next h =>
      refine ⟨?_, .inr ⟨_, rfl, digits_takeWhile h⟩⟩
      rw [List.cons_append, List.takeWhile_append_dropWhile]
  next => exact ⟨rfl, .inl rfl⟩

theorem fraction_complete {frac rest : List Char} (h : IsFraction frac)
    (hrest : ∀ c ∈ rest.head?, c.isDigit = false ∧ c ≠ '.') :
    fraction (frac ++ rest) = (frac, rest) := by
  rcases h with rfl | ⟨ds, rfl, hne, hdigits⟩
  · unfold fraction
    split
    next heq =>
      rw [List.nil_append] at heq
      exact absurd rfl (hrest '.' (by rw [heq]; rfl)).2
    next => rfl
  · obtain ⟨htake, hdrop⟩ := span_append hdigits fun c hc => (hrest c hc).1
    rw [List.cons_append, fraction, htake, hdrop, if_neg hne]

theorem sign_sound {cs : List Char} : cs = (sign cs).1 ++ (sign cs).2 ∧ IsSign (sign cs).1 := by
  unfold sign
  split
  next c rest =>
    split
    next h =>
      refine ⟨rfl, .inr ?_⟩
      rcases h with rfl | rfl
      · exact .inl rfl
      · exact .inr rfl
    next => exact ⟨rfl, .inl rfl⟩
  next => exact ⟨rfl, .inl rfl⟩

theorem exponent_sound : cs = (exponent cs).1 ++ (exponent cs).2 ∧ IsExponent (exponent cs).1 := by
  unfold exponent
  split
  next e rest =>
    dsimp only
    split
    next h =>
      obtain ⟨hsign, hissign⟩ := sign_sound
      refine ⟨?_, .inr ⟨e, _, _, rfl, h.1, hissign, digits_takeWhile h.2⟩⟩
      rw [List.cons_append, List.append_assoc, List.takeWhile_append_dropWhile, ← hsign]
    next => exact ⟨rfl, .inl rfl⟩
  next => exact ⟨rfl, .inl rfl⟩

theorem exponent_complete {exp rest : List Char} (h : IsExponent exp)
    (hrest : ∀ c ∈ rest.head?, c.isDigit = false ∧ c ≠ 'e' ∧ c ≠ 'E') :
    exponent (exp ++ rest) = (exp, rest) := by
  rcases h with rfl | ⟨e, signed, ds, rfl, he, hsigned, hne, hdigits⟩
  · cases rest with
    | nil => rfl
    | cons c cs =>
      obtain ⟨-, hlower, hupper⟩ := hrest c rfl
      rw [List.nil_append, exponent]
      simp [hlower, hupper]
  · obtain ⟨htake, hdrop⟩ := span_append hdigits fun c hc => (hrest c hc).1
    have hsign : sign (signed ++ (ds ++ rest)) = (signed, ds ++ rest) := by
      rcases hsigned with rfl | rfl | rfl
      · cases ds with
        | nil => exact absurd rfl hne
        | cons d ds =>
          have hd := hdigits d List.mem_cons_self
          have hplus : d ≠ '+' := fun heq => by rw [heq] at hd; exact absurd hd (by decide)
          have hminus : d ≠ '-' := fun heq => by rw [heq] at hd; exact absurd hd (by decide)
          simp [sign, hplus, hminus]
      · simp [sign]
      · simp [sign]
    rw [List.cons_append, List.append_assoc, exponent, hsign]
    dsimp only
    rw [htake, hdrop, if_pos ⟨he, hne⟩]

theorem minus_sound :
    cs = (minus cs).1 ++ (minus cs).2 ∧ ((minus cs).1 = [] ∨ (minus cs).1 = ['-']) := by
  unfold minus
  split
  next => exact ⟨rfl, .inr rfl⟩
  next => exact ⟨rfl, .inl rfl⟩

theorem number?_sound {cs number rest : List Char} (h : number? cs = some (number, rest)) :
    cs = number ++ rest ∧ IsNumber number := by
  unfold number? at h
  rw [Option.map_eq_some_iff] at h
  obtain ⟨⟨int, more⟩, hint, heq⟩ := h
  rw [Prod.mk.injEq] at heq
  obtain ⟨rfl, rfl⟩ := heq
  obtain ⟨hminus, hisMinus⟩ := minus_sound cs
  obtain ⟨hrest, hinteger⟩ := integer?_sound hint
  obtain ⟨hfraction, hisFraction⟩ := fraction_sound more
  obtain ⟨hexponent, hisExponent⟩ := exponent_sound (fraction more).2
  refine ⟨?_, _, _, _, _, rfl, hisMinus, hinteger, hisFraction, hisExponent⟩
  conv_lhs => rw [hminus, hrest, hfraction, hexponent]
  simp only [List.append_assoc]

def Follows (rest : List Char) : Prop :=
  ∀ c ∈ rest.head?, c.isDigit = false ∧ c ≠ '.' ∧ c ≠ 'e' ∧ c ≠ 'E'

theorem head?_integer {int : List Char} (h : IsInteger int) :
    ∃ c cs, int = c :: cs ∧ c.isDigit = true := by
  rcases h with rfl | ⟨⟨hne, hdigits⟩, -⟩
  · exact ⟨'0', [], rfl, by decide⟩
  · cases int with
    | nil => exact absurd rfl hne
    | cons c cs => exact ⟨c, cs, rfl, hdigits c List.mem_cons_self⟩

theorem number?_complete {number rest : List Char} (h : IsNumber number) (hrest : Follows rest) :
    number? (number ++ rest) = some (number, rest) := by
  obtain ⟨first, int, frac, exp, rfl, hfirst, hint, hfrac, hexp⟩ := h
  obtain ⟨c, cs, hcons, hdigit⟩ := head?_integer hint
  have hnotMinus : c ≠ '-' := fun heq => by rw [heq] at hdigit; exact absurd hdigit (by decide)
  have hminus : ∀ more, minus (first ++ (int ++ more)) = (first, int ++ more) := by
    intro more
    rcases hfirst with rfl | rfl
    · rw [hcons, List.nil_append, List.cons_append]
      unfold minus
      split
      next heq =>
        cases heq
        exact absurd rfl hnotMinus
      next => rfl
    · rfl
  -- An exponent begins with a letter, a fraction with a point.
  have hexpHead : ∀ d ∈ (exp ++ rest).head?, d.isDigit = false ∧ d ≠ '.' := by
    intro d hd
    rcases hexp with rfl | ⟨e, signed, ds, rfl, he, -, -⟩
    · exact ⟨(hrest d hd).1, (hrest d hd).2.1⟩
    · cases hd
      rcases he with rfl | rfl <;> decide
  have hfracHead : ∀ d ∈ (frac ++ (exp ++ rest)).head?, d.isDigit = false := by
    intro d hd
    rcases hfrac with rfl | ⟨ds, rfl, -⟩
    · exact (hexpHead d hd).1
    · cases hd
      decide
  have hexpRest : ∀ d ∈ rest.head?, d.isDigit = false ∧ d ≠ 'e' ∧ d ≠ 'E' :=
    fun d hd => ⟨(hrest d hd).1, (hrest d hd).2.2⟩
  simp only [List.append_assoc]
  rw [number?, hminus, integer?_complete hint hfracHead]
  simp only [Option.map_some, fraction_complete hfrac hexpHead, exponent_complete hexp hexpRest]

theorem ends_of_isNumber {number : List Char} (h : IsNumber number) :
    (∃ c cs, number = c :: cs ∧ (c.isDigit = true ∨ c = '-')) ∧
      ∃ c ∈ number.getLast?, c.isDigit = true := by
  obtain ⟨first, int, frac, exp, rfl, hfirst, hint, hfrac, hexp⟩ := h
  obtain ⟨c, cs, rfl, hdigit⟩ := head?_integer hint
  have hlast : ∀ ds : List Char, Digits ds → ∃ d ∈ ds.getLast?, d.isDigit = true := by
    intro ds hds
    exact ⟨ds.getLast hds.1, List.getLast?_eq_some_getLast hds.1, hds.2 _ (List.getLast_mem hds.1)⟩
  constructor
  · rcases hfirst with rfl | rfl
    · exact ⟨c, _, rfl, .inl hdigit⟩
    · exact ⟨'-', _, rfl, .inr rfl⟩
  · simp only [List.getLast?_append]
    rcases hexp with rfl | ⟨e, signed, ds, rfl, -, -, hds⟩
    · rcases hfrac with rfl | ⟨ds, rfl, hds⟩
      · rcases hint with hzero | ⟨hds, -⟩
        · rw [hzero]
          exact ⟨'0', rfl, by decide⟩
        · obtain ⟨d, hd, hd'⟩ := hlast _ hds
          exact ⟨d, by rw [Option.mem_def.mp hd]; rfl, hd'⟩
      · obtain ⟨d, hd, hd'⟩ := hlast _ hds
        exact ⟨d, by rw [List.getLast?_cons, Option.mem_def.mp hd]; rfl, hd'⟩
    · obtain ⟨d, hd, hd'⟩ := hlast _ hds
      exact ⟨d, by rw [List.getLast?_cons, List.getLast?_append, Option.mem_def.mp hd]; rfl, hd'⟩

theorem mem_of_isNumber {number : List Char} (h : IsNumber number) :
    ∀ c ∈ number, c.isDigit = true ∨ c ∈ ['.', 'e', 'E', '+', '-'] := by
  obtain ⟨first, int, frac, exp, rfl, hfirst, hint, hfrac, hexp⟩ := h
  intro c hc
  simp only [List.mem_append] at hc
  rcases hc with hc | hc | hc | hc
  · rcases hfirst with rfl | rfl
    · cases hc
    · simp_all
  · rcases hint with rfl | ⟨⟨-, hdigits⟩, -⟩
    · rw [List.mem_singleton.mp hc]
      exact .inl (by decide)
    · exact .inl (hdigits c hc)
  · rcases hfrac with rfl | ⟨ds, rfl, -, hdigits⟩
    · cases hc
    · rcases List.mem_cons.mp hc with rfl | hc
      · simp
      · exact .inl (hdigits c hc)
  · rcases hexp with rfl | ⟨e, signed, ds, rfl, he, hsigned, -, hdigits⟩
    · cases hc
    · rcases List.mem_cons.mp hc with rfl | hc
      · rcases he with rfl | rfl <;> simp
      · rcases List.mem_append.mp hc with hc | hc
        · rcases hsigned with rfl | rfl | rfl <;> simp_all
        · exact .inl (hdigits c hc)

theorem literal?_sound {cs rest : List Char} {v : Value} (h : literal? cs = some (v, rest)) :
    ∃ text, cs = text ++ rest ∧ (text, v) ∈ literals := by
  unfold literal? at h
  rw [Option.map_eq_some_iff] at h
  obtain ⟨⟨text, value⟩, hfind, heq⟩ := h
  rw [Prod.mk.injEq] at heq
  obtain ⟨rfl, rfl⟩ := heq
  have hprefix := List.find?_some hfind
  obtain ⟨more, rfl⟩ := List.isPrefixOf_iff_prefix.mp hprefix
  exact ⟨text, by simp, List.mem_of_find?_eq_some hfind⟩

theorem literal?_complete {text : List Char} {v : Value} (h : (text, v) ∈ literals)
    {rest : List Char} : literal? (text ++ rest) = some (v, rest) := by
  simp only [literals, List.mem_cons, Prod.mk.injEq, List.not_mem_nil, or_false] at h
  rcases h with ⟨rfl, rfl⟩ | ⟨rfl, rfl⟩ | ⟨rfl, rfl⟩ | ⟨rfl, rfl⟩ | ⟨rfl, rfl⟩ | ⟨rfl, rfl⟩ <;>
    rfl

theorem ends_of_literal {text : List Char} {v : Value} (h : (text, v) ∈ literals) :
    (∃ c cs, text = c :: cs ∧ (c.isAlpha = true ∨ c = '-')) ∧
      ∃ c ∈ text.getLast?, c.isAlpha = true := by
  simp only [literals, List.mem_cons, Prod.mk.injEq, List.not_mem_nil, or_false] at h
  rcases h with ⟨rfl, -⟩ | ⟨rfl, -⟩ | ⟨rfl, -⟩ | ⟨rfl, -⟩ | ⟨rfl, -⟩ | ⟨rfl, -⟩ <;>
    exact ⟨⟨_, _, rfl, by decide⟩, _, rfl, by decide⟩

theorem literal?_number {number : List Char} (h : IsNumber number) {rest : List Char} :
    literal? (number ++ rest) = none := by
  obtain ⟨first, int, frac, exp, rfl, hfirst, hint, -, -⟩ := h
  obtain ⟨c, cs, rfl, hdigit⟩ := head?_integer hint
  have hne : ∀ d : Char, d.isDigit = false → c ≠ d := by
    rintro d hd rfl
    rw [hd] at hdigit
    cases hdigit
  rcases hfirst with rfl | rfl
  · simp [literal?, literals, List.isPrefixOf, (hne 'n' (by decide)).symm,
      (hne 't' (by decide)).symm, (hne 'f' (by decide)).symm, (hne 'N' (by decide)).symm,
      (hne 'I' (by decide)).symm, (hne '-' (by decide)).symm]
  · simp [literal?, literals, List.isPrefixOf, (hne 'I' (by decide)).symm]

theorem body?_sound {cs rest : List Char} {units : List Nat} (h : body? cs = some (units, rest)) :
    ∃ text, cs = text ++ '"' :: rest ∧ Body text units := by
  induction cs using body?.induct generalizing units with
  | case1 => cases h
  | case2 cs =>
    rw [body?, Option.some.injEq, Prod.mk.injEq] at h
    obtain ⟨rfl, rfl⟩ := h
    exact ⟨[], rfl, .nil⟩
  | case3 a b c d cs ih =>
    rw [body?] at h
    simp only [Option.bind_eq_some_iff, Option.map_eq_some_iff, Prod.exists, Prod.mk.injEq] at h
    obtain ⟨unit, hunit, more, last, hmore, rfl, rfl⟩ := h
    obtain ⟨text, rfl, hbody⟩ := ih hmore
    exact ⟨_, rfl, .unicode hunit hbody⟩
  | case4 e cs hnot ih =>
    rw [body?] at h
    · simp only [Option.bind_eq_some_iff, Option.map_eq_some_iff, Prod.exists, Prod.mk.injEq] at h
      obtain ⟨c, hc, more, last, hmore, rfl, rfl⟩ := h
      obtain ⟨text, rfl, hbody⟩ := ih hmore
      exact ⟨_, rfl, .escape hc hbody⟩
    · exact hnot
  | case5 c cs hquote hunicode hslash hbad =>
    rw [body?, if_pos hbad] at h
    · cases h
    · exact hquote
    · exact hunicode
    · exact hslash
  | case6 c cs hquote hunicode hslash hgood ih =>
    rw [body?, if_neg hgood] at h
    · simp only [Option.map_eq_some_iff, Prod.exists, Prod.mk.injEq] at h
      obtain ⟨more, last, hmore, rfl, rfl⟩ := h
      obtain ⟨text, rfl, hbody⟩ := ih hmore
      rw [not_or] at hgood
      exact ⟨_, rfl, .plain hquote hgood.2 (by omega) hbody⟩
    · exact hquote
    · exact hunicode
    · exact hslash

theorem body?_complete {text : List Char} {units : List Nat} (h : Body text units)
    {rest : List Char} : body? (text ++ '"' :: rest) = some (units, rest) := by
  induction h with
  | nil => rw [List.nil_append, body?]
  | plain hquote hslash hcontrol _ ih =>
    rw [List.cons_append, body?, if_neg (by rw [not_or]; exact ⟨by omega, hslash⟩), ih]
    · rfl
    all_goals simp_all
  | escape he _ ih =>
    rw [List.cons_append, List.cons_append, body?, he, Option.bind_some, ih]
    · rfl
    · rintro a b c d cs rfl
      cases he
  | unicode hunit _ ih =>
    simp only [List.cons_append]
    rw [body?, hunit, Option.bind_some, ih]
    rfl

theorem hexOf_digits {a b c d : Char} {unit : Nat} (h : hexOf a b c d = some unit) :
    ∀ digit ∈ [a, b, c, d], digit ≠ '"' ∧ digit ≠ '\\' := by
  have hdigit : ∀ {e : Char} {n : Nat}, hexDigit e = some n → e ≠ '"' ∧ e ≠ '\\' := by
    intro e n he
    constructor <;>
      · rintro rfl
        cases he
  simp only [hexOf, Option.bind_eq_some_iff, Option.map_eq_some_iff] at h
  obtain ⟨_, ha, _, hb, _, hc, _, hd, -⟩ := h
  simp only [List.forall_mem_cons, List.not_mem_nil, false_imp_iff, implies_true, and_true]
  exact ⟨hdigit ha, hdigit hb, hdigit hc, hdigit hd⟩

theorem skipBlank_append : ∃ blank, Blank blank ∧ cs = blank ++ skipBlank cs :=
  ⟨cs.takeWhile isBlank, fun _ hc => List.mem_takeWhile_imp hc,
    List.takeWhile_append_dropWhile.symm⟩

theorem value?_sound (fuel : Nat) :
    (∀ cs v rest, value? fuel cs = some (v, rest) → ∃ text, cs = text ++ rest ∧ Renders text v) ∧
    (∀ cs items rest, items? fuel cs = some (items, rest) →
      ∃ text, cs = text ++ ']' :: rest ∧ RendersItems text items) ∧
    ∀ cs members rest, members? fuel cs = some (members, rest) →
      ∃ text, cs = text ++ '}' :: rest ∧ RendersMembers text members := by
  induction fuel with
  | zero => simp [value?, items?, members?]
  | succ fuel ih =>
    obtain ⟨ihValue, ihItems, ihMembers⟩ := ih
    refine ⟨?_, ?_, ?_⟩
    · intro cs v rest h
      unfold value? at h
      split at h
      next cs =>
        simp only [Option.map_eq_some_iff, Prod.exists, Prod.mk.injEq] at h
        obtain ⟨units, more, hbody, rfl, rfl⟩ := h
        obtain ⟨text, rfl, hrenders⟩ := body?_sound hbody
        exact ⟨_, by simp, .string hrenders⟩
      next cs =>
        obtain ⟨blank, hblank, hcs⟩ := skipBlank_append cs
        split at h
        next more hmore =>
          simp only [Option.some.injEq, Prod.mk.injEq] at h
          obtain ⟨rfl, rfl⟩ := h
          rw [hmore] at hcs
          exact ⟨_, by rw [hcs]; simp, .emptyArray hblank⟩
        next =>
          simp only [Option.map_eq_some_iff, Prod.exists, Prod.mk.injEq] at h
          obtain ⟨items, more, hitems, rfl, rfl⟩ := h
          obtain ⟨text, rfl, hrenders⟩ := ihItems _ _ _ hitems
          exact ⟨_, by simp, .array hrenders⟩
      next cs =>
        obtain ⟨blank, hblank, hcs⟩ := skipBlank_append cs
        split at h
        next more hmore =>
          simp only [Option.some.injEq, Prod.mk.injEq] at h
          obtain ⟨rfl, rfl⟩ := h
          rw [hmore] at hcs
          exact ⟨_, by rw [hcs]; simp, .emptyObject hblank⟩
        next =>
          simp only [Option.map_eq_some_iff, Prod.exists, Prod.mk.injEq] at h
          obtain ⟨members, more, hmembers, rfl, rfl⟩ := h
          obtain ⟨text, rfl, hrenders⟩ := ihMembers _ _ _ hmembers
          exact ⟨_, by simp, .object hrenders⟩
      next =>
        rw [Option.or_eq_some_iff] at h
        rcases h with h | ⟨-, h⟩
        · obtain ⟨text, heq, hliteral⟩ := literal?_sound h
          exact ⟨text, heq, .literal hliteral⟩
        · simp only [Option.map_eq_some_iff, Prod.exists, Prod.mk.injEq] at h
          obtain ⟨number, more, hnumber, rfl, rfl⟩ := h
          obtain ⟨heq, hnumber⟩ := number?_sound hnumber
          exact ⟨number, heq, .number hnumber⟩
    · intro cs items rest h
      unfold items? at h
      simp only [Option.bind_eq_some_iff, Prod.exists] at h
      obtain ⟨v, more, hv, h⟩ := h
      obtain ⟨before, hbefore, hcs⟩ := skipBlank_append cs
      obtain ⟨text, htext, hrenders⟩ := ihValue _ _ _ hv
      obtain ⟨after, hafter, hmore⟩ := skipBlank_append more
      split at h
      next later hlater =>
        simp only [Option.map_eq_some_iff, Prod.exists, Prod.mk.injEq] at h
        obtain ⟨items, last, hitems, rfl, rfl⟩ := h
        obtain ⟨others, hothers, hrest⟩ := ihItems _ _ _ hitems
        refine ⟨_, ?_, .more hbefore hrenders hafter hrest⟩
        rw [hcs, htext, hmore, hlater, hothers]
        simp
      next later hlater =>
        simp only [Option.some.injEq, Prod.mk.injEq] at h
        obtain ⟨rfl, rfl⟩ := h
        refine ⟨_, ?_, .last hbefore hrenders hafter⟩
        rw [hcs, htext, hmore, hlater]
        simp
      next => cases h
    · intro cs members rest h
      unfold members? at h
      obtain ⟨before, hbefore, hcs⟩ := skipBlank_append cs
      split at h
      next named hnamed =>
        simp only [Option.bind_eq_some_iff, Prod.exists] at h
        obtain ⟨units, afterName, hname, h⟩ := h
        obtain ⟨name, hnameText, hbody⟩ := body?_sound hname
        obtain ⟨colon, hcolon, hafterName⟩ := skipBlank_append afterName
        split at h
        next valued hvalued =>
          simp only [Option.bind_eq_some_iff, Prod.exists] at h
          obtain ⟨v, more, hv, h⟩ := h
          obtain ⟨between, hbetween, hvaluedText⟩ := skipBlank_append valued
          obtain ⟨text, htext, hrenders⟩ := ihValue _ _ _ hv
          obtain ⟨after, hafter, hmore⟩ := skipBlank_append more
          split at h
          next later hlater =>
            simp only [Option.map_eq_some_iff, Prod.exists, Prod.mk.injEq] at h
            obtain ⟨members, last, hmembers, rfl, rfl⟩ := h
            obtain ⟨others, hothers, hrest⟩ := ihMembers _ _ _ hmembers
            refine ⟨_, ?_, .more hbefore hbody hcolon hbetween hrenders hafter hrest⟩
            rw [hcs, hnamed, hnameText, hafterName, hvalued, hvaluedText, htext, hmore, hlater,
              hothers]
            simp
          next later hlater =>
            simp only [Option.some.injEq, Prod.mk.injEq] at h
            obtain ⟨rfl, rfl⟩ := h
            refine ⟨_, ?_, .last hbefore hbody hcolon hbetween hrenders hafter⟩
            rw [hcs, hnamed, hnameText, hafterName, hvalued, hvaluedText, htext, hmore, hlater]
            simp
          next => cases h
        next => cases h
      next => cases h

theorem isSpace_of_isBlank {c : Char} (h : isBlank c = true) : Text.isSpace c = true := by
  simp only [isBlank, Bool.or_eq_true, decide_eq_true_eq] at h
  rcases h with ((rfl | rfl) | rfl) | rfl <;> decide

theorem isSpace_of_isDigit {c : Char} (h : c.isDigit = true) : Text.isSpace c = false := by
  have hbounds : 48 ≤ c.toNat ∧ c.toNat ≤ 57 := by
    simpa [Char.isDigit, UInt32.le_iff_toNat_le] using h
  simp only [Text.isSpace, Bool.or_eq_false_iff, Bool.and_eq_false_iff, decide_eq_false_iff_not,
    beq_eq_false_iff_ne, ne_eq]
  omega

theorem isSpace_of_isAlpha {c : Char} (h : c.isAlpha = true) : Text.isSpace c = false := by
  have hbounds : 65 ≤ c.toNat ∧ c.toNat ≤ 90 ∨ 97 ≤ c.toNat ∧ c.toNat ≤ 122 := by
    rcases Bool.or_eq_true_iff.mp h with hupper | hlower
    · exact .inl (of_decide_eq_true hupper)
    · have hrange := Bool.and_eq_true_iff.mp hlower
      exact .inr ⟨of_decide_eq_true hrange.1, of_decide_eq_true hrange.2⟩
  simp only [Text.isSpace, Bool.or_eq_false_iff, Bool.and_eq_false_iff, decide_eq_false_iff_not,
    beq_eq_false_iff_ne, ne_eq]
  omega

theorem Renders.trimmed {cs : List Char} {v : Value} (h : Renders cs v) :
    cs ≠ [] ∧ Text.Trimmed cs := by
  have hwrap : ∀ (first last : Char) (middle : List Char), Text.isSpace first = false →
      Text.isSpace last = false → first :: (middle ++ [last]) ≠ [] ∧
        Text.Trimmed (first :: (middle ++ [last])) := by
    intro first last middle hfirst hlast
    refine ⟨List.cons_ne_nil _ _, ?_, ?_⟩
    · intro c hc
      cases hc
      exact hfirst
    · intro c hc
      rw [← List.cons_append, List.getLast?_append] at hc
      cases hc
      exact hlast
  have hends : ∀ text : List Char, (∃ c cs, text = c :: cs ∧ Text.isSpace c = false) →
      (∃ c ∈ text.getLast?, Text.isSpace c = false) → text ≠ [] ∧ Text.Trimmed text := by
    rintro text ⟨c, cs, rfl, hc⟩ ⟨d, hd, hspace⟩
    refine ⟨List.cons_ne_nil _ _, ?_, ?_⟩
    · intro e he
      cases he
      exact hc
    · intro e he
      rw [Option.mem_def.mp hd] at he
      cases he
      exact hspace
  cases h with
  | literal h =>
    obtain ⟨⟨c, cs, rfl, hc⟩, d, hd, hd'⟩ := ends_of_literal h
    refine hends _ ⟨c, cs, rfl, ?_⟩ ⟨d, hd, isSpace_of_isAlpha hd'⟩
    rcases hc with hc | rfl
    · exact isSpace_of_isAlpha hc
    · decide
  | number h =>
    obtain ⟨⟨c, cs, rfl, hc⟩, d, hd, hd'⟩ := ends_of_isNumber h
    refine hends _ ⟨c, cs, rfl, ?_⟩ ⟨d, hd, isSpace_of_isDigit hd'⟩
    rcases hc with hc | rfl
    · exact isSpace_of_isDigit hc
    · decide
  | string _ => exact hwrap '"' '"' _ (by decide) (by decide)
  | emptyArray _ => exact hwrap '[' ']' _ (by decide) (by decide)
  | array _ => exact hwrap '[' ']' _ (by decide) (by decide)
  | emptyObject _ => exact hwrap '{' '}' _ (by decide) (by decide)
  | object _ => exact hwrap '{' '}' _ (by decide) (by decide)

theorem skipBlank_of_blank {blank rest : List Char} (h : Blank blank)
    (hrest : ∀ c ∈ rest.head?, isBlank c = false) : skipBlank (blank ++ rest) = rest :=
  (span_append h hrest).2

theorem Renders.head_not_blank {cs : List Char} {v : Value} (h : Renders cs v) (rest : List Char) :
    ∀ c ∈ (cs ++ rest).head?, isBlank c = false := by
  obtain ⟨hne, htrimmed⟩ := h.trimmed
  cases cs with
  | nil => exact absurd rfl hne
  | cons c cs =>
    intro d hd
    cases hd
    rw [Bool.eq_false_iff]
    intro hblank
    have hspace := htrimmed.1 c rfl
    rw [isSpace_of_isBlank hblank] at hspace
    cases hspace

theorem Renders.head_ne {cs : List Char} {v : Value} (h : Renders cs v) {c : Char}
    (hc : c.isAlpha = false ∧ c.isDigit = false ∧ c ∉ ['-', '"', '[', '{']) (rest : List Char) :
    (cs ++ rest).head? ≠ some c := by
  obtain ⟨halpha, hdigit, hmarks⟩ := hc
  simp only [List.mem_cons, List.not_mem_nil, or_false, not_or] at hmarks
  intro heq
  cases h with
  | literal h =>
    obtain ⟨⟨d, text, rfl, hd⟩, -⟩ := ends_of_literal h
    cases heq
    simp [halpha, hmarks.1] at hd
  | number h =>
    obtain ⟨⟨d, text, rfl, hd⟩, -⟩ := ends_of_isNumber h
    cases heq
    simp [hdigit, hmarks.1] at hd
  | string _ => exact hmarks.2.1 (Option.some.inj heq).symm
  | emptyArray _ => exact hmarks.2.2.1 (Option.some.inj heq).symm
  | array _ => exact hmarks.2.2.1 (Option.some.inj heq).symm
  | emptyObject _ => exact hmarks.2.2.2 (Option.some.inj heq).symm
  | object _ => exact hmarks.2.2.2 (Option.some.inj heq).symm

theorem scalar_head {c : Char} (h : c.isAlpha = true ∨ c.isDigit = true ∨ c = '-') :
    c ≠ '"' ∧ c ≠ '[' ∧ c ≠ '{' := by
  refine ⟨?_, ?_, ?_⟩ <;>
    · intro heq
      rw [heq] at h
      revert h
      decide

theorem Renders.braces {cs : List Char} {members : Members} (h : Renders cs (.obj members)) :
    ∃ inner, cs = '{' :: (inner ++ ['}']) ∧ (Blank inner ∨ RendersMembers inner members) := by
  generalize hv : Value.obj members = v at h
  cases h with
  | literal h => simp [literals, ← hv] at h
  | number _ =>
    unfold numberValue at hv
    split at hv <;> cases hv
  | string _ => cases hv
  | emptyArray _ => cases hv
  | array _ => cases hv
  | emptyObject hblank => exact ⟨_, rfl, .inl hblank⟩
  | object hmembers =>
    cases hv
    exact ⟨_, rfl, .inr hmembers⟩

theorem Renders.object_of_brace {cs : List Char} {v : Value} (h : Renders cs v)
    (hhead : cs.head? = some '{') : ∃ members, v = .obj members := by
  cases h with
  | literal h =>
    obtain ⟨⟨c, text, rfl, hc⟩, -⟩ := ends_of_literal h
    cases hhead
    exact absurd rfl (scalar_head (hc.imp_right .inr)).2.2
  | number h =>
    obtain ⟨⟨c, text, rfl, hc⟩, -⟩ := ends_of_isNumber h
    cases hhead
    exact absurd rfl (scalar_head (.inr hc)).2.2
  | string _ => cases hhead
  | emptyArray _ => cases hhead
  | array _ => cases hhead
  | emptyObject _ => exact ⟨_, rfl⟩
  | object _ => exact ⟨_, rfl⟩

theorem RendersItems.head_not_bracket {cs : List Char} {items : Items} (h : RendersItems cs items)
    (rest : List Char) : (skipBlank (cs ++ rest)).head? ≠ some ']' := by
  cases h with
  | last hbefore hv _ =>
    rw [List.append_assoc, List.append_assoc, skipBlank_of_blank hbefore (hv.head_not_blank _)]
    exact hv.head_ne (by decide) _
  | more hbefore hv _ _ =>
    rw [List.append_assoc, List.append_assoc, skipBlank_of_blank hbefore (hv.head_not_blank _)]
    exact hv.head_ne (by decide) _

theorem RendersMembers.head_quote {cs : List Char} {members : Members}
    (h : RendersMembers cs members) (rest : List Char) :
    (skipBlank (cs ++ rest)).head? = some '"' := by
  cases h with
  | last hbefore _ _ _ _ _ =>
    rw [List.append_assoc, skipBlank_of_blank hbefore (by simp [isBlank])]
    rfl
  | more hbefore _ _ _ _ _ _ =>
    rw [List.append_assoc, skipBlank_of_blank hbefore (by simp [isBlank])]
    rfl

theorem value?_scalar {fuel : Nat} {cs : List Char}
    (h : ∀ c ∈ cs.head?, c ≠ '"' ∧ c ≠ '[' ∧ c ≠ '{') :
    value? (fuel + 1) cs =
      (literal? cs).or ((number? cs).map fun number => (numberValue number.1, number.2)) := by
  unfold value?
  split
  next => exact absurd rfl (h '"' rfl).1
  next => exact absurd rfl (h '[' rfl).2.1
  next => exact absurd rfl (h '{' rfl).2.2
  next => rfl

theorem follows_of_head {c : Char} {rest : List Char}
    (h : c.isDigit = false ∧ c ≠ '.' ∧ c ≠ 'e' ∧ c ≠ 'E') : Follows (c :: rest) := by
  intro d hd
  cases hd
  exact h

theorem follows_blank {blank rest : List Char} (h : Blank blank) (hrest : Follows rest) :
    Follows (blank ++ rest) := by
  cases blank with
  | nil => exact hrest
  | cons c cs =>
    intro d hd
    cases hd
    have hblank := h c List.mem_cons_self
    simp only [isBlank, Bool.or_eq_true, decide_eq_true_eq] at hblank
    rcases hblank with ((rfl | rfl) | rfl) | rfl <;> decide

theorem skipBlank_renders {blank cs rest : List Char} {v : Value} (hblank : Blank blank)
    (h : Renders cs v) : skipBlank (blank ++ (cs ++ rest)) = cs ++ rest :=
  skipBlank_of_blank hblank (h.head_not_blank rest)

theorem value?_complete (fuel : Nat) :
    (∀ cs v rest, Renders cs v → 2 * cs.length < fuel → Follows rest →
      value? fuel (cs ++ rest) = some (v, rest)) ∧
    (∀ cs items rest, RendersItems cs items → 2 * cs.length + 1 < fuel →
      items? fuel (cs ++ ']' :: rest) = some (items, rest)) ∧
    ∀ cs members rest, RendersMembers cs members → 2 * cs.length + 1 < fuel →
      members? fuel (cs ++ '}' :: rest) = some (members, rest) := by
  have hcomma : ∀ rest, Follows (',' :: rest) := fun _ => follows_of_head (by decide)
  have hbracket : ∀ rest, Follows (']' :: rest) := fun _ => follows_of_head (by decide)
  have hbrace : ∀ rest, Follows ('}' :: rest) := fun _ => follows_of_head (by decide)
  induction fuel with
  | zero =>
    refine ⟨?_, ?_, ?_⟩
    · intro cs v rest _ hfuel _
      omega
    · intro cs items rest _ hfuel
      omega
    · intro cs members rest _ hfuel
      omega
  | succ fuel ih =>
    obtain ⟨ihValue, ihItems, ihMembers⟩ := ih
    refine ⟨?_, ?_, ?_⟩
    · intro cs v rest h hfuel hrest
      cases h with
      | literal h =>
        rw [value?_scalar, literal?_complete h]
        · rfl
        · obtain ⟨⟨c, text, rfl, hc⟩, -⟩ := ends_of_literal h
          intro d hd
          cases hd
          exact scalar_head (hc.imp_right .inr)
      | number h =>
        rw [value?_scalar, literal?_number h, number?_complete h hrest]
        · rfl
        · obtain ⟨⟨c, text, rfl, hc⟩, -⟩ := ends_of_isNumber h
          intro d hd
          cases hd
          exact scalar_head (.inr hc)
      | string hbody =>
        simp only [List.cons_append, List.append_assoc, value?]
        rw [body?_complete hbody]
        rfl
      | emptyArray hblank =>
        simp only [List.cons_append, List.append_assoc, value?]
        rw [skipBlank_of_blank hblank (by simp [isBlank])]
        rfl
      | array hitems =>
        have hnot := hitems.head_not_bracket (']' :: rest)
        simp only [List.length_cons, List.length_append, List.length_nil] at hfuel
        simp only [List.cons_append, List.append_assoc, List.nil_append, value?]
        split
        next more hmore => exact absurd (by rw [hmore]; rfl) hnot
        next =>
          rw [ihItems _ _ _ hitems (by omega)]
          rfl
      | emptyObject hblank =>
        simp only [List.cons_append, List.append_assoc, value?]
        rw [skipBlank_of_blank hblank (by simp [isBlank])]
        rfl
      | object hmembers =>
        have hnot := hmembers.head_quote ('}' :: rest)
        simp only [List.length_cons, List.length_append, List.length_nil] at hfuel
        simp only [List.cons_append, List.append_assoc, List.nil_append, value?]
        split
        next more hmore =>
          rw [hmore] at hnot
          cases hnot
        next =>
          rw [ihMembers _ _ _ hmembers (by omega)]
          rfl
    · intro cs items rest h hfuel
      cases h with
      | last hbefore hv hafter =>
        simp only [List.append_assoc, items?]
        simp only [List.length_append] at hfuel
        rw [skipBlank_renders hbefore hv,
          ihValue _ _ _ hv (by omega) (follows_blank hafter (hbracket rest)), Option.bind_some]
        dsimp only
        rw [skipBlank_of_blank hafter (by simp [isBlank])]
        rfl
      | more hbefore hv hafter hmore =>
        simp only [List.append_assoc, List.cons_append, items?]
        simp only [List.length_append, List.length_cons] at hfuel
        rw [skipBlank_renders hbefore hv,
          ihValue _ _ _ hv (by omega) (follows_blank hafter (hcomma _)), Option.bind_some]
        dsimp only
        rw [skipBlank_of_blank hafter (by simp [isBlank])]
        simp only [ihItems _ _ _ hmore (by omega : _ < fuel), Option.map_some]
    · intro cs members rest h hfuel
      cases h with
      | last hbefore hname hcolon hbetween hv hafter =>
        simp only [List.append_assoc, List.cons_append, members?]
        simp only [List.length_append, List.length_cons] at hfuel
        rw [skipBlank_of_blank hbefore (by simp [isBlank])]
        simp only [body?_complete hname, Option.bind_some]
        rw [skipBlank_of_blank hcolon (by simp [isBlank])]
        simp only [skipBlank_renders hbetween hv]
        rw [ihValue _ _ _ hv (by omega) (follows_blank hafter (hbrace rest)), Option.bind_some]
        dsimp only
        rw [skipBlank_of_blank hafter (by simp [isBlank])]
        rfl
      | more hbefore hname hcolon hbetween hv hafter hmore =>
        simp only [List.append_assoc, List.cons_append, members?]
        simp only [List.length_append, List.length_cons] at hfuel
        rw [skipBlank_of_blank hbefore (by simp [isBlank])]
        simp only [body?_complete hname, Option.bind_some]
        rw [skipBlank_of_blank hcolon (by simp [isBlank])]
        simp only [skipBlank_renders hbetween hv]
        rw [ihValue _ _ _ hv (by omega) (follows_blank hafter (hcomma _)), Option.bind_some]
        dsimp only
        rw [skipBlank_of_blank hafter (by simp [isBlank])]
        simp only [ihMembers _ _ _ hmore (by omega : _ < fuel), Option.map_some]

theorem skipBlank_eq_nil {cs : List Char} : skipBlank cs = [] ↔ Blank cs :=
  List.dropWhile_eq_nil_iff

theorem loads_sound {cs : List Char} {v : Value} (h : loads cs = some v) :
    ∃ before text after, cs = before ++ (text ++ after) ∧ Blank before ∧ Renders text v ∧
      Blank after := by
  unfold loads at h
  split at h
  next => cases h
  next =>
    rw [Option.bind_eq_some_iff] at h
    obtain ⟨⟨value, rest⟩, hvalue, h⟩ := h
    dsimp only at h
    split at h
    next hrest =>
      cases h
      obtain ⟨before, hbefore, hcs⟩ := skipBlank_append cs
      obtain ⟨text, htext, hrenders⟩ := (value?_sound _).1 _ _ _ hvalue
      rw [htext] at hcs
      exact ⟨before, text, rest, hcs, hbefore, hrenders, skipBlank_eq_nil.mp hrest⟩
    next => cases h

theorem loads_complete {before text after : List Char} {v : Value} (hbefore : Blank before)
    (h : Renders text v) (hafter : Blank after) : loads (before ++ (text ++ after)) = some v := by
  have hmark : (before ++ (text ++ after)).head? ≠ some '\ufeff' := by
    cases before with
    | nil => exact h.head_ne (by decide) after
    | cons c cs =>
      intro heq
      cases heq
      exact absurd (hbefore _ List.mem_cons_self) (by decide)
  have hfollows : Follows after := by
    have hblank := follows_blank hafter fun c (hc : c ∈ ([] : List Char).head?) => by cases hc
    rwa [List.append_nil] at hblank
  rw [loads, if_neg hmark, skipBlank_renders hbefore h,
    (value?_complete _).1 _ _ _ h (by simp only [List.length_append]; omega) hfollows,
    Option.bind_some, if_pos (skipBlank_eq_nil.mpr hafter)]

theorem Renders.loads {cs : List Char} {v : Value} (h : Renders cs v) : Json.loads cs = some v := by
  have hnone : Blank [] := fun c hc => by cases hc
  have hload := loads_complete hnone h hnone
  rwa [List.append_nil, List.nil_append] at hload

theorem loads_trim {cs : List Char} {v : Value} (h : loads cs = some v) :
    loads (Text.trim cs) = some v ∧ Renders (Text.trim cs) v := by
  obtain ⟨before, text, after, rfl, hbefore, hrenders, hafter⟩ := loads_sound h
  obtain ⟨hne, htrimmed⟩ := hrenders.trimmed
  rw [Text.trim_append_spaces htrimmed hne (fun c hc => isSpace_of_isBlank (hbefore c hc))
    fun c hc => isSpace_of_isBlank (hafter c hc)]
  exact ⟨hrenders.loads, hrenders⟩

def Printable (c : Char) : Prop := isBlank c = true ∨ 32 ≤ c.toNat

instance (c : Char) : Decidable (Printable c) := inferInstanceAs (Decidable (_ ∨ _))

theorem hexOf_printable {a b c d : Char} {unit : Nat} (h : hexOf a b c d = some unit) :
    ∀ digit ∈ [a, b, c, d], Printable digit := by
  have hdigit : ∀ {e : Char} {n : Nat}, hexDigit e = some n → Printable e := by
    intro e n he
    refine .inr (Nat.le_of_not_lt fun hlt => ?_)
    have hisDigit : e.isDigit = false := by
      rw [Bool.eq_false_iff]
      intro hdigit
      have hbounds : 48 ≤ e.toNat ∧ e.toNat ≤ 57 := by
        simpa [Char.isDigit, UInt32.le_iff_toNat_le] using hdigit
      omega
    have hlower : ¬('a' ≤ e ∧ e ≤ 'f') := fun hle => by
      have hle : (97 : Nat) ≤ e.toNat := hle.1
      omega
    have hupper : ¬('A' ≤ e ∧ e ≤ 'F') := fun hle => by
      have hle : (65 : Nat) ≤ e.toNat := hle.1
      omega
    rw [hexDigit, if_neg (by simp [hisDigit]), if_neg hlower, if_neg hupper] at he
    cases he
  simp only [hexOf, Option.bind_eq_some_iff, Option.map_eq_some_iff] at h
  obtain ⟨_, ha, _, hb, _, hc, _, hd, -⟩ := h
  simp only [List.forall_mem_cons, List.not_mem_nil, false_imp_iff, implies_true, and_true]
  exact ⟨hdigit ha, hdigit hb, hdigit hc, hdigit hd⟩

theorem Body.printable {cs : List Char} {units : List Nat} (h : Body cs units) :
    ∀ c ∈ cs, Printable c := by
  induction h with
  | nil => simp
  | plain _ _ hcontrol _ ih =>
    rw [List.forall_mem_cons]
    exact ⟨.inr hcontrol, ih⟩
  | @escape e c cs units he _ ih =>
    rw [List.forall_mem_cons, List.forall_mem_cons]
    refine ⟨by decide, .inr ?_, ih⟩
    unfold escapeOf at he
    split at he
    all_goals first | decide | cases he
  | unicode hunit _ ih =>
    have hdigits := hexOf_printable hunit
    simp only [List.forall_mem_cons] at hdigits ⊢
    obtain ⟨ha, hb, hc, hd, -⟩ := hdigits
    exact ⟨by decide, by decide, ha, hb, hc, hd, ih⟩

theorem literal_printable {cs : List Char} {v : Value} (h : (cs, v) ∈ literals) :
    ∀ c ∈ cs, Printable c := by
  simp only [literals, List.mem_cons, Prod.mk.injEq, List.not_mem_nil, or_false] at h
  rcases h with ⟨rfl, -⟩ | ⟨rfl, -⟩ | ⟨rfl, -⟩ | ⟨rfl, -⟩ | ⟨rfl, -⟩ | ⟨rfl, -⟩ <;>
    exact List.forall_iff_forall_mem.mp (by decide)

theorem number_printable {cs : List Char} (h : IsNumber cs) : ∀ c ∈ cs, Printable c := by
  intro c hc
  rcases mem_of_isNumber h c hc with hdigit | hmark
  · have hbounds : 48 ≤ c.toNat ∧ c.toNat ≤ 57 := by
      simpa [Char.isDigit, UInt32.le_iff_toNat_le] using hdigit
    exact .inr (by omega)
  · simp only [List.mem_cons, List.not_mem_nil, or_false] at hmark
    rcases hmark with rfl | rfl | rfl | rfl | rfl <;> decide

theorem blank_printable {cs : List Char} (h : Blank cs) : ∀ c ∈ cs, Printable c :=
  fun c hc => .inl (h c hc)

mutual

theorem printable_of_renders {cs : List Char} {v : Value} (h : Renders cs v) :
    ∀ c ∈ cs, Printable c := by
  cases h with
  | literal h => exact literal_printable h
  | number h => exact number_printable h
  | string h =>
    have hbody := h.printable
    simp only [List.forall_mem_cons, List.forall_mem_append]
    exact ⟨by decide, hbody, by decide, by simp⟩
  | emptyArray h =>
    simp only [List.forall_mem_cons, List.forall_mem_append]
    exact ⟨by decide, blank_printable h, by decide, by simp⟩
  | array h =>
    simp only [List.forall_mem_cons, List.forall_mem_append]
    exact ⟨by decide, printable_of_items h, by decide, by simp⟩
  | emptyObject h =>
    simp only [List.forall_mem_cons, List.forall_mem_append]
    exact ⟨by decide, blank_printable h, by decide, by simp⟩
  | object h =>
    simp only [List.forall_mem_cons, List.forall_mem_append]
    exact ⟨by decide, printable_of_members h, by decide, by simp⟩

theorem printable_of_items {cs : List Char} {items : Items} (h : RendersItems cs items) :
    ∀ c ∈ cs, Printable c := by
  cases h with
  | last hbefore h hafter =>
    simp only [List.forall_mem_append]
    exact ⟨blank_printable hbefore, printable_of_renders h, blank_printable hafter⟩
  | more hbefore h hafter hrest =>
    simp only [List.forall_mem_append, List.forall_mem_cons]
    exact ⟨blank_printable hbefore, printable_of_renders h, blank_printable hafter, by decide,
      printable_of_items hrest⟩

theorem printable_of_members {cs : List Char} {members : Members} (h : RendersMembers cs members) :
    ∀ c ∈ cs, Printable c := by
  cases h with
  | last hbefore hname hcolon hbetween h hafter =>
    simp only [List.forall_mem_append, List.forall_mem_cons]
    exact ⟨blank_printable hbefore, by decide, hname.printable, by decide, blank_printable hcolon,
      by decide, blank_printable hbetween, printable_of_renders h, blank_printable hafter⟩
  | more hbefore hname hcolon hbetween h hafter hrest =>
    simp only [List.forall_mem_append, List.forall_mem_cons]
    exact ⟨blank_printable hbefore, by decide, hname.printable, by decide, blank_printable hcolon,
      by decide, blank_printable hbetween, printable_of_renders h, blank_printable hafter,
      by decide, printable_of_members hrest⟩

end

end Json
