import Mathlib.Data.List.Infix

/-!
# Text operations of the host languages

Rendering of the string operations that Python and Lua code shares: splitting at
a separator, joining, stripping, slicing and decimal numerals. A text is a Lean
`String`; every operation goes through its list of characters. Nothing here
depends on the program that uses it.
-/

namespace Text

/-- Python `text.split(sep)` for a separator of one character. -/
def split (sep : Char) (text : String) : List String :=
  (text.toList.splitOn sep).map String.ofList

def isSpace (c : Char) : Bool :=
  let n := c.toNat
  (9 ≤ n && n ≤ 13) || (28 ≤ n && n ≤ 32) || n == 0x85 || n == 0xa0 || n == 0x1680 ||
    (0x2000 ≤ n && n ≤ 0x200a) || n == 0x2028 || n == 0x2029 || n == 0x202f || n == 0x205f ||
    n == 0x3000

def strip (text : String) : String :=
  .ofList ((text.toList.dropWhile isSpace).reverse.dropWhile isSpace).reverse

/-- Python `text.lower()` on the ASCII letters; the other characters are kept. -/
def lower (text : String) : String := .ofList (text.toList.map Char.toLower)

/-- Python `text.replace(old, new)` for single characters. -/
def replace (old new : Char) (text : String) : String :=
  .ofList (text.toList.map (fun c => if c = old then new else c))

def take (limit : Nat) (text : String) : String := .ofList (text.toList.take limit)

def digits? (ds : List Char) : Option Nat :=
  if ds.isEmpty || !ds.all Char.isDigit then none else some (Nat.ofDigitChars 10 ds 0)

def decimal? (text : String) : Option Int :=
  match text.toList with
  | '-' :: ds => (digits? ds).map (fun n => -(n : Int))
  | ds => (digits? ds).map (fun n => (n : Int))

def grouped? (ds : List Char) : Option Nat :=
  if (ds.splitOn '_').all (fun group => !group.isEmpty) then digits? (ds.filter (· ≠ '_')) else none

def int? (text : String) : Option Int :=
  match (strip text).toList with
  | '-' :: ds => (grouped? ds).map (fun n => -(n : Int))
  | '+' :: ds => (grouped? ds).map (fun n => (n : Int))
  | ds => (grouped? ds).map (fun n => (n : Int))

def runs (inside : Char → Bool) (text : String) : List String :=
  ((text.toList.splitOnP (fun c => !inside c)).filter (fun run => !run.isEmpty)).map String.ofList

def fields (text : String) : List String := runs (fun c => !isSpace c) text

def collapse : Bool → List Char → List Char
  | _, [] => []
  | afterBlank, c :: cs =>
    if isSpace c then
      if afterBlank then collapse true cs else ' ' :: collapse true cs
    else c :: collapse false cs

def collapseSpaces (text : String) : String := .ofList (collapse false text.toList)

def contains (marker text : String) : Bool := marker.toList <:+: text.toList

/-- What the host reads from the Unicode tables: normal form KC followed by case folding, and
the class `\w`. -/
structure Unicode where
  foldKC : String → String
  isWord : Char → Bool

variable {sep : Char} {text : String}

theorem notMem_of_mem_split {part : String} (h : part ∈ split sep text) : sep ∉ part.toList := by
  have parts : ∀ (cs : List Char), ∀ p ∈ cs.splitOn sep, sep ∉ p := by
    intro cs
    induction cs with
    | nil => simp
    | cons c cs ih =>
      intro p hp
      rw [List.splitOn_cons_eq_if_modifyHead] at hp
      by_cases hc : c = sep
      · subst hc
        simp only [beq_self_eq_true, if_true, List.mem_cons] at hp
        rcases hp with rfl | hp
        · simp
        · exact ih p hp
      · simp only [beq_iff_eq, hc, if_false] at hp
        cases hs : cs.splitOn sep with
        | nil => exact absurd hs (List.splitOn_ne_nil _ _)
        | cons q qs =>
          rw [hs] at hp ih
          simp only [List.modifyHead_cons, List.mem_cons] at hp
          rcases hp with rfl | hp
          · simp [Ne.symm hc, ih q (by simp)]
          · exact ih p (by simp [hp])
  simp only [split, List.mem_map] at h
  obtain ⟨p, hp, rfl⟩ := h
  simpa using parts _ p hp

theorem split_append (sep : Char) (x y : String) :
    split sep (x ++ String.singleton sep ++ y) = split sep x ++ split sep y := by
  simp [split, List.splitOn_append_cons_self]

theorem split_singleton {x : String} (hx : sep ∉ x.toList) : split sep x = [x] := by
  simp [split, List.splitOn_eq_singleton hx]

theorem split_intercalate_cons {x y : String} {rest : List String} (hx : sep ∉ x.toList) :
    split sep ((String.singleton sep).intercalate (x :: y :: rest)) =
      x :: split sep ((String.singleton sep).intercalate (y :: rest)) := by
  rw [String.intercalate_cons_cons, split_append, split_singleton hx, List.singleton_append]

theorem split_intercalate (sep : Char) {parts : List String} (h : parts ≠ []) :
    split sep ((String.singleton sep).intercalate parts) = parts.flatMap (split sep) := by
  induction parts with
  | nil => exact absurd rfl h
  | cons x rest ih =>
    cases rest with
    | nil => simp
    | cons y rest =>
      rw [String.intercalate_cons_cons, split_append, ih (by simp)]
      rfl

variable {old new : Char}

theorem notMem_replace (text : String) (h : new ≠ old) : old ∉ (replace old new text).toList := by
  simp only [replace, String.toList_ofList, List.mem_map, not_exists, not_and]
  intro c _ hc
  split at hc
  · exact h hc
  · contradiction

variable {c : Char}

theorem notMem_replace_of_notMem (h : c ∉ text.toList) (hc : c ≠ new) :
    c ∉ (replace old new text).toList := by
  simp only [replace, String.toList_ofList, List.mem_map, not_exists, not_and]
  rintro d hd rfl
  split at hc <;> simp_all

theorem notMem_take (limit : Nat) (h : c ∉ text.toList) : c ∉ (take limit text).toList := by
  simp only [take, String.toList_ofList]
  exact fun hm => h (List.mem_of_mem_take hm)

theorem strip_of_no_space (h : ∀ c ∈ text.toList, isSpace c = false) : strip text = text := by
  have keep : ∀ {cs : List Char}, (∀ c ∈ cs, isSpace c = false) → cs.dropWhile isSpace = cs := by
    rintro (_ | ⟨c, cs⟩) h
    · rfl
    · simp [h c (by simp)]
  rw [strip, keep h, keep (by simpa using h), List.reverse_reverse, String.ofList_toList]

theorem replace_of_notMem (h : old ∉ text.toList) : replace old new text = text := by
  have hmap : text.toList.map (fun c => if c = old then new else c) = text.toList := by
    conv_rhs => rw [← List.map_id text.toList]
    refine List.map_congr_left (fun c hc => if_neg ?_)
    rintro rfl
    exact h hc
  rw [replace, hmap, String.ofList_toList]

theorem take_of_length_le {limit : Nat} (h : text.toList.length ≤ limit) :
    take limit text = text := by
  rw [take, List.take_of_length_le h, String.ofList_toList]

theorem mem_strip (h : c ∈ text.toList) (hc : isSpace c = false) : c ∈ (strip text).toList := by
  have keep : ∀ {cs : List Char}, c ∈ cs → c ∈ cs.dropWhile isSpace := by
    intro cs
    induction cs with
    | nil => simp
    | cons d cs ih =>
      intro hmem
      rw [List.dropWhile_cons]
      split
      · rename_i hspace
        rcases List.mem_cons.mp hmem with rfl | hmem
        · rw [hc] at hspace
          cases hspace
        · exact ih hmem
      · exact hmem
  simp only [strip, String.toList_ofList, List.mem_reverse]
  exact keep (by simpa using keep h)

theorem digits?_toDigits (n : Nat) : digits? (Nat.toDigits 10 n) = some n := by
  have hall : (Nat.toDigits 10 n).all Char.isDigit = true := by
    simp only [List.all_eq_true]
    exact fun c hc => Nat.isDigit_of_mem_toDigits (by omega) (by omega) hc
  simp [digits?, hall, Nat.toDigits_ne_nil]

theorem toList_repr_negSucc (n : Nat) :
    (Int.negSucc n).repr.toList = '-' :: Nat.toDigits 10 (n + 1) := by
  show ("-" ++ Nat.repr (n + 1)).toList = _
  simp

@[simp] theorem decimal?_repr (n : Int) : decimal? n.repr = some n := by
  cases n with
  | ofNat n =>
    have hlist : (Int.ofNat n).repr.toList = Nat.toDigits 10 n := Nat.toList_repr
    unfold decimal?
    rw [hlist]
    split
    · rename_i ds hds
      have : '-' ∈ Nat.toDigits 10 n := by rw [hds]; simp
      have := Nat.isDigit_of_mem_toDigits (by omega) (by omega) this
      exact absurd this (by decide)
    · simp [digits?_toDigits]
  | negSucc n =>
    unfold decimal?
    rw [toList_repr_negSucc]
    simp [digits?_toDigits, Int.negSucc_eq]

theorem notMem_repr (hd : c.isDigit = false) (hc : c ≠ '-') (n : Int) : c ∉ n.repr.toList := by
  have digit : ∀ m : Nat, c ∉ Nat.toDigits 10 m := by
    intro m hm
    have := Nat.isDigit_of_mem_toDigits (by omega) (by omega) hm
    rw [hd] at this
    exact absurd this (by decide)
  cases n with
  | ofNat n =>
    have hlist : (Int.ofNat n).repr.toList = Nat.toDigits 10 n := Nat.toList_repr
    rw [hlist]
    exact digit n
  | negSucc n =>
    rw [toList_repr_negSucc]
    simp [hc, digit (n + 1)]

theorem isSpace_of_mem_repr {n : Int} (h : c ∈ n.repr.toList) : isSpace c = false := by
  by_contra hspace
  rw [Bool.not_eq_false] at hspace
  refine notMem_repr ?_ ?_ n h
  · rw [Char.isDigit, Bool.and_eq_false_iff]
    simp only [decide_eq_false_iff_not, ge_iff_le, UInt32.le_iff_toNat_le]
    have h48 : ('0' : Char).val.toNat = 48 := by decide
    have h57 : ('9' : Char).val.toNat = 57 := by decide
    simp only [isSpace, Char.toNat, Bool.or_eq_true, Bool.and_eq_true, decide_eq_true_eq,
      beq_iff_eq] at hspace
    omega
  · rintro rfl
    exact absurd hspace (by decide)

theorem repr_ne_empty (n : Int) : n.repr ≠ "" := by
  intro h
  have hread := decimal?_repr n
  rw [h] at hread
  have hempty : decimal? "" = none := by decide
  rw [hempty] at hread
  exact absurd hread (by simp)

end Text
