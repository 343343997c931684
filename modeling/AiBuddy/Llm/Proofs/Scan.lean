import AiBuddy.Llm.JsonText
import AiBuddy.Misc.JsonDecoder

/-!
# The object scan on JSON texts

`_extract_json_object` finds the end of a JSON object: it passes over the texts inside, whatever
their strings contain, and it stops at the brace of the object. So it finds nothing in an object
that was cut off, and such a text is no JSON text either.
-/

namespace AiBuddy.Llm

open Json

theorem objectFrom_quote {depth : Nat} {cs : List Char} :
    objectFrom depth .outside ('"' :: cs) = (objectFrom depth .inString cs).map ('"' :: ·) := by
  simp [objectFrom, depthAfter, Place.next]

theorem objectFrom_open (depth : Nat) (cs : List Char) :
    objectFrom depth .outside ('{' :: cs) =
      (objectFrom (depth + 1) .outside cs).map ('{' :: ·) := by
  simp [objectFrom, depthAfter, Place.next]

theorem objectFrom_last (cs : List Char) : objectFrom 1 .outside ('}' :: cs) = some ['}'] := by
  simp [objectFrom]

theorem objectFrom_close {depth : Nat} (h : 1 ≤ depth) (cs : List Char) :
    objectFrom (depth + 1) .outside ('}' :: cs) =
      (objectFrom depth .outside cs).map ('}' :: ·) := by
  have hne : depth ≠ 0 := by omega
  simp [objectFrom, depthAfter, Place.next, hne]

def IsPlain (c : Char) : Prop := c ≠ '"' ∧ c ≠ '{' ∧ c ≠ '}'

instance (c : Char) : Decidable (IsPlain c) := inferInstanceAs (Decidable (_ ∧ _))

theorem objectFrom_plain {c : Char} (h : IsPlain c) {depth : Nat} {cs : List Char} :
    objectFrom depth .outside (c :: cs) = (objectFrom depth .outside cs).map (c :: ·) := by
  simp [objectFrom, depthAfter, Place.next, h.1, h.2.1, h.2.2]

theorem objectFrom_inString {c : Char} (hquote : c ≠ '"') (hslash : c ≠ '\\') {depth : Nat}
    {cs : List Char} :
    objectFrom depth .inString (c :: cs) = (objectFrom depth .inString cs).map (c :: ·) := by
  simp [objectFrom, depthAfter, Place.next, hquote, hslash]

theorem objectFrom_escape {c : Char} {depth : Nat} {cs : List Char} :
    objectFrom depth .inString ('\\' :: c :: cs) =
      (objectFrom depth .inString cs).map ('\\' :: c :: ·) := by
  simp [objectFrom, depthAfter, Place.next, Option.map_map, Function.comp_def]

theorem objectFrom_endString {depth : Nat} {cs : List Char} :
    objectFrom depth .inString ('"' :: cs) = (objectFrom depth .outside cs).map ('"' :: ·) := by
  simp [objectFrom, depthAfter, Place.next]

def Passes (depth : Nat) (cs : List Char) : Prop :=
  ∀ rest, objectFrom depth .outside (cs ++ rest) = (objectFrom depth .outside rest).map (cs ++ ·)

theorem Passes.append {depth : Nat} {cs ds : List Char} (h : Passes depth cs)
    (hds : Passes depth ds) : Passes depth (cs ++ ds) := by
  intro rest
  rw [List.append_assoc, h, hds, Option.map_map]
  simp [Function.comp_def]

theorem Passes.plain {depth : Nat} {cs : List Char} (h : ∀ c ∈ cs, IsPlain c) :
    Passes depth cs := by
  induction cs with
  | nil =>
    intro rest
    simp
  | cons c cs ih =>
    rw [List.forall_mem_cons] at h
    intro rest
    rw [List.cons_append, objectFrom_plain h.1, ih h.2 rest, Option.map_map]
    rfl

theorem Passes.single {depth : Nat} {c : Char} (hc : IsPlain c) : Passes depth [c] :=
  .plain (by simpa using hc)

theorem Passes.cons {depth : Nat} {c : Char} {cs : List Char} (hc : IsPlain c)
    (h : Passes depth cs) : Passes depth (c :: cs) := (Passes.single hc).append h

theorem Passes.blank {depth : Nat} {cs : List Char} (h : Blank cs) : Passes depth cs := by
  refine .plain fun c hc => ?_
  have hblank := h c hc
  simp only [isBlank, Bool.or_eq_true, decide_eq_true_eq] at hblank
  rcases hblank with ((rfl | rfl) | rfl) | rfl <;> decide

theorem objectFrom_body {depth : Nat} {body : List Char} {units : List Nat} (h : Body body units)
    {rest : List Char} :
    objectFrom depth .inString (body ++ '"' :: rest) =
      (objectFrom depth .outside rest).map (body ++ '"' :: ·) := by
  induction h with
  | nil => exact objectFrom_endString
  | plain hquote hslash _ _ ih =>
    rw [List.cons_append, objectFrom_inString hquote hslash, ih, Option.map_map]
    rfl
  | escape _ _ ih =>
    rw [List.cons_append, List.cons_append, objectFrom_escape, ih, Option.map_map]
    rfl
  | unicode hunit _ ih =>
    have hdigits := hexOf_digits hunit
    simp only [List.forall_mem_cons] at hdigits
    obtain ⟨ha, hb, hc, hd, -⟩ := hdigits
    simp only [List.cons_append]
    rw [objectFrom_escape, objectFrom_inString ha.1 ha.2, objectFrom_inString hb.1 hb.2,
      objectFrom_inString hc.1 hc.2, objectFrom_inString hd.1 hd.2, ih]
    simp only [Option.map_map]
    rfl

theorem Passes.string {depth : Nat} {body : List Char} {units : List Nat} (h : Body body units)
    {rest : List Char} (hrest : Passes depth rest) : Passes depth ('"' :: (body ++ '"' :: rest)) :=
      by
  intro more
  rw [List.cons_append, List.append_assoc, List.cons_append, objectFrom_quote, objectFrom_body h,
    hrest, Option.map_map, Option.map_map]
  simp [Function.comp_def]

theorem Passes.object {depth : Nat} {cs : List Char} (hdepth : 1 ≤ depth)
    (h : Passes (depth + 1) cs) : Passes depth ('{' :: (cs ++ ['}'])) := by
  intro rest
  rw [List.cons_append, List.append_assoc, List.singleton_append, objectFrom_open, h,
    objectFrom_close hdepth, Option.map_map, Option.map_map]
  simp [Function.comp_def]

theorem objectFrom_object {cs : List Char} (h : Passes 1 cs) {rest : List Char} :
    objectFrom 0 .outside ('{' :: (cs ++ '}' :: rest)) = some ('{' :: (cs ++ ['}'])) := by
  rw [objectFrom_open, h, objectFrom_last]
  rfl

theorem isPlain_of_isNumber {cs : List Char} (h : IsNumber cs) : ∀ c ∈ cs, IsPlain c := by
  intro c hc
  have hchars := mem_of_isNumber h c hc
  refine ⟨?_, ?_, ?_⟩ <;>
    · intro heq
      rw [heq] at hchars
      revert hchars
      decide

theorem isPlain_of_literal {cs : List Char} {v : Value} (h : (cs, v) ∈ literals) :
    ∀ c ∈ cs, IsPlain c := by
  simp only [literals, List.mem_cons, Prod.mk.injEq, List.not_mem_nil, or_false] at h
  rcases h with ⟨rfl, -⟩ | ⟨rfl, -⟩ | ⟨rfl, -⟩ | ⟨rfl, -⟩ | ⟨rfl, -⟩ | ⟨rfl, -⟩ <;>
    exact List.forall_iff_forall_mem.mp (by decide)

mutual

theorem passes_of_renders {cs : List Char} {v : Value} (h : Renders cs v) {depth : Nat}
    (hdepth : 1 ≤ depth) : Passes depth cs :=
  match h with
  | .literal h => .plain (isPlain_of_literal h)
  | .number h => .plain (isPlain_of_isNumber h)
  | .string h => .string h (.plain (by simp))
  | .emptyArray h => .cons (by decide) ((Passes.blank h).append (.single (by decide)))
  | .array h => .cons (by decide) ((passes_of_items h hdepth).append (.single (by decide)))
  | .emptyObject h => .object hdepth (.blank h)
  | .object h => .object hdepth (passes_of_members h (by omega))

theorem passes_of_items {cs : List Char} {items : Items} (h : RendersItems cs items) {depth : Nat}
    (hdepth : 1 ≤ depth) : Passes depth cs :=
  match h with
  | .last hbefore h hafter =>
    (Passes.blank hbefore).append ((passes_of_renders h hdepth).append (.blank hafter))
  | .more hbefore h hafter hrest =>
    (Passes.blank hbefore).append ((passes_of_renders h hdepth).append
      ((Passes.blank hafter).append (.cons (by decide) (passes_of_items hrest hdepth))))

theorem passes_of_members {cs : List Char} {members : Members} (h : RendersMembers cs members)
    {depth : Nat} (hdepth : 1 ≤ depth) : Passes depth cs :=
  match h with
  | .last hbefore hname hcolon hbetween h hafter =>
    (Passes.blank hbefore).append (.string hname ((Passes.blank hcolon).append (.cons (by decide)
      ((Passes.blank hbetween).append ((passes_of_renders h hdepth).append
        (.blank hafter))))))
  | .more hbefore hname hcolon hbetween h hafter hrest =>
    (Passes.blank hbefore).append (.string hname ((Passes.blank hcolon).append (.cons (by decide)
      ((Passes.blank hbetween).append ((passes_of_renders h hdepth).append
        ((Passes.blank hafter).append (.cons (by decide)
          (passes_of_members hrest hdepth))))))))

end

theorem objectFrom_renders {cs : List Char} {members : Members} (h : Renders cs (.obj members))
    (rest : List Char) : objectFrom 0 .outside (cs ++ rest) = some cs := by
  obtain ⟨inner, rfl, hinner⟩ := h.braces
  rw [List.cons_append, List.append_assoc, List.singleton_append]
  rcases hinner with hblank | hmembers
  · exact objectFrom_object (.blank hblank)
  · exact objectFrom_object (passes_of_members hmembers (le_refl 1))

theorem objectFrom_append {cs found : List Char} {depth : Nat} {place : Place}
    (h : objectFrom depth place cs = some found) {more : List Char} :
    objectFrom depth place (cs ++ more) = some found ∧ found.length ≤ cs.length := by
  induction cs generalizing depth place found with
  | nil => cases h
  | cons c cs ih =>
    rw [objectFrom] at h
    rw [List.cons_append, objectFrom]
    split at h
    next hend =>
      cases h
      rw [if_pos hend]
      exact ⟨rfl, by simp⟩
    next hend =>
      rw [Option.map_eq_some_iff] at h
      obtain ⟨tail, htail, rfl⟩ := h
      obtain ⟨hmore, hlength⟩ := ih htail
      rw [if_neg hend, hmore]
      exact ⟨rfl, by simpa using hlength⟩

def CutShort (text : List Char) : Prop :=
  text ≠ [] ∧ ∃ rest members, rest ≠ [] ∧ Renders (text ++ rest) (.obj members)

theorem extractJsonObject_eq {cs : List Char} (h : cs.head? = some '{') :
    extractJsonObject cs = objectFrom 0 .outside cs := by
  cases cs with
  | nil => cases h
  | cons c cs =>
    cases h
    rfl

theorem CutShort.head {text : List Char} (h : CutShort text) : text.head? = some '{' := by
  obtain ⟨hne, rest, members, -, hrenders⟩ := h
  obtain ⟨inner, heq, -⟩ := hrenders.braces
  rw [← List.head?_append_of_ne_nil text hne, heq]
  rfl

theorem extract_cutShort {text : List Char} (h : CutShort text) : extractJsonObject text =
    none := by
  rw [extractJsonObject_eq h.head]
  obtain ⟨hne, rest, members, hrest, hrenders⟩ := h
  have hwhole := objectFrom_renders hrenders []
  rw [List.append_nil] at hwhole
  cases hfound : objectFrom 0 .outside text with
  | none => rfl
  | some found =>
    obtain ⟨hmore, hlength⟩ := objectFrom_append hfound
    rw [hwhole, Option.some.injEq] at hmore
    rw [← hmore, List.length_append] at hlength
    have hpositive := List.length_pos_of_ne_nil hrest
    omega

theorem loads_cutShort {text : List Char} (h : CutShort text) : loads text = none := by
  cases hload : loads text with
  | none => rfl
  | some v =>
    exfalso
    obtain ⟨before, whole, after, rfl, hbefore, hrenders, hafter⟩ := loads_sound hload
    have hhead := h.head
    cases before with
    | cons c cs =>
      cases hhead
      exact absurd (hbefore _ List.mem_cons_self) (by decide)
    | nil =>
      rw [List.nil_append] at h hhead
      rw [List.head?_append_of_ne_nil _ hrenders.trimmed.1] at hhead
      obtain ⟨members, rfl⟩ := hrenders.object_of_brace hhead
      have hscan := objectFrom_renders hrenders after
      rw [← extractJsonObject_eq h.head, extract_cutShort h] at hscan
      cases hscan

end AiBuddy.Llm
