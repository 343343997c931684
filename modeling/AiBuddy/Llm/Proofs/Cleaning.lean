import AiBuddy.Llm.JsonText
import AiBuddy.Misc.JsonDecoder

/-!
# Cleaning a text without tags and fences

Where no part of a text begins with a reasoning tag or a code fence, `_sanitize_json_text` strips it
and removes control characters, and it leaves a JSON text as it is.
-/

namespace AiBuddy.Llm

open Json

def NoReasoningTag (cs : List Char) : Prop :=
  ∀ part, part <:+: cs →
    Text.dropLetters "<think>".toList part = none ∧ reasoningOpening? part = none

def NoFence (cs : List Char) : Prop :=
  ∀ part, part <:+: cs → Text.dropLetters "```".toList part = none

variable {cs : List Char}

theorem NoReasoningTag.part {part : List Char} (h : NoReasoningTag cs) (hpart : part <:+: cs) :
    NoReasoningTag part := fun other hother => h other (hother.trans hpart)

theorem NoFence.part {part : List Char} (h : NoFence cs) (hpart : part <:+: cs) : NoFence part :=
  fun other hother => h other (hother.trans hpart)

theorem sameLetter_mark {mark : Char} (h : mark.isAlpha = false) (c : Char)
    (hc : Text.sameLetter mark c = true) : c = mark := by
  have hne : ∀ letter : Char, letter.isAlpha = true → mark ≠ letter := by
    rintro letter hletter rfl
    rw [h] at hletter
    cases hletter
  have hlower : c.toLower = mark := by
    simpa [Text.sameLetter, hne 's' (by decide), hne 'k' (by decide), hne 'i' (by decide)] using hc
  unfold Char.toLower at hlower
  split at hlower
  next hupper =>
    exfalso
    have hbounds : 65 ≤ c.toNat ∧ c.toNat ≤ 90 := hupper
    have hval : mark.toNat = c.toNat + 32 := by
      rw [← hlower]
      change (c.val + 32).toNat = c.val.toNat + 32
      rw [UInt32.toNat_add]
      have hnat : c.val.toNat = c.toNat := rfl
      simp
      omega
    have halpha : mark.isAlpha = true := by
      have hrange : 97 ≤ mark.toNat ∧ mark.toNat ≤ 122 := by omega
      refine Bool.or_eq_true_iff.mpr (.inr (Bool.and_eq_true_iff.mpr ⟨?_, ?_⟩))
      · exact decide_eq_true hrange.1
      · exact decide_eq_true hrange.2
    rw [h] at halpha
    cases halpha
  next => exact hlower

theorem dropLetters_mark {letter : Char} {letters part rest : List Char}
    (hletter : ∀ c, Text.sameLetter letter c = true → c = letter)
    (h : Text.dropLetters (letter :: letters) part = some rest) : letter ∈ part := by
  cases part with
  | nil => cases h
  | cons c cs =>
    rw [Text.dropLetters] at h
    split at h
    next hsame => rw [hletter c hsame]; exact List.mem_cons_self
    next => cases h

theorem noReasoningTag_of_notMem (h : '<' ∉ cs) : NoReasoningTag cs := by
  have hletter : ∀ c, Text.sameLetter '<' c = true → c = '<' := sameLetter_mark (by decide)
  intro part hpart
  have hnot : '<' ∉ part := fun hmem => h (hpart.subset hmem)
  constructor
  · by_contra hsome
    obtain ⟨rest, hrest⟩ := Option.ne_none_iff_exists'.mp hsome
    exact hnot (dropLetters_mark hletter hrest)
  · by_contra hsome
    obtain ⟨rest, hrest⟩ := Option.ne_none_iff_exists'.mp hsome
    rw [reasoningOpening?, Option.bind_eq_some_iff] at hrest
    obtain ⟨named, hnamed, -⟩ := hrest
    exact hnot (dropLetters_mark hletter hnamed)

theorem noFence_of_notMem (h : '`' ∉ cs) : NoFence cs := by
  intro part hpart
  by_contra hsome
  obtain ⟨rest, hrest⟩ := Option.ne_none_iff_exists'.mp hsome
  exact h (hpart.subset (dropLetters_mark (sameLetter_mark (by decide)) hrest))

theorem trim_within {cs : List Char} : Text.trim cs <:+: cs := by
  obtain ⟨spaces, -, heq⟩ := Text.trimEnd_append_spaces (cs.dropWhile Text.isSpace)
  refine ⟨cs.takeWhile Text.isSpace, spaces, ?_⟩
  rw [List.append_assoc, Text.trim, ← heq, List.takeWhile_append_dropWhile]

theorem trim_trim (cs : List Char) : Text.trim (Text.trim cs) = Text.trim cs := by
  by_cases hne : Text.trim cs = []
  · rw [hne]
    rfl
  · exact Text.trim_of_trimmed (Text.trimmed_trim cs) hne

def SpanFree (cs : List Char) : Prop :=
  ∀ part, part <:+ cs → thinkSpan? part = none ∧ reasoningSpan? part = none

theorem NoReasoningTag.spanFree (h : NoReasoningTag cs) : SpanFree cs := by
  intro part hpart
  constructor
  · rw [thinkSpan?, Text.span?, (h part hpart.isInfix).1, Option.bind_none]
  · rw [reasoningSpan?, Text.span?, (h part hpart.isInfix).2, Option.bind_none]

theorem SpanFree.removeMatches (h : SpanFree cs) :
    Text.removeMatches reasoningSpan? (Text.removeMatches thinkSpan? cs) = cs := by
  rw [Text.removeMatches_of_none fun part hpart => (h part hpart).1,
    Text.removeMatches_of_none fun part hpart => (h part hpart).2]

theorem not_fence_start {front : List Char} (h : NoFence cs)
    (hfront : (Text.dropLetters "```".toList front).isSome) : front.isPrefixOf cs = false := by
  rw [Bool.eq_false_iff]
  intro hprefix
  obtain ⟨rest, rfl⟩ := List.isPrefixOf_iff_prefix.mp hprefix
  rw [h front ⟨[], rest, rfl⟩] at hfront
  cases hfront

theorem unfenced_of_noFence (h : NoFence cs) : unfenced cs = Text.trim cs := by
  have hsearch : Text.search? fenceAt? cs = none := by
    refine Text.search?_eq_none fun rest hrest => ?_
    rw [fenceAt?, h rest hrest.isInfix, Option.bind_none]
  have hsuffix : "```".toList.isSuffixOf cs = false := by
    rw [Bool.eq_false_iff]
    intro hsuffix
    obtain ⟨front, rfl⟩ := List.isSuffixOf_iff_suffix.mp hsuffix
    have hnone := h "```".toList ⟨front, [], by simp⟩
    revert hnone
    decide
  rw [unfenced, hsearch]
  dsimp only
  rw [removePrefix, removePrefix, removeSuffix, not_fence_start h (by decide)]
  simp only [Bool.false_eq_true, if_false]
  rw [not_fence_start h (by decide)]
  simp only [Bool.false_eq_true, if_false]
  rw [hsuffix]
  rfl

theorem sanitize_spanFree (hspan : SpanFree (Text.trim cs)) (hfence : NoFence (Text.trim cs)) :
    sanitizeJsonText cs = (Text.trim cs).filter fun c => !isControl c := by
  rw [sanitizeJsonText, hspan.removeMatches, unfenced_of_noFence hfence, trim_trim]

theorem sanitize_plain (htag : NoReasoningTag cs) (hfence : NoFence cs) :
    sanitizeJsonText cs = (Text.trim cs).filter fun c => !isControl c :=
  sanitize_spanFree (htag.part trim_within).spanFree (hfence.part trim_within)

theorem isControl_of_printable {c : Char} (h : Printable c) : isControl c = false := by
  rcases h with hblank | hle
  · simp only [isBlank, Bool.or_eq_true, decide_eq_true_eq] at hblank
    rcases hblank with ((rfl | rfl) | rfl) | rfl <;> decide
  · simp only [isControl, Bool.or_eq_false_iff, Bool.and_eq_false_iff, decide_eq_false_iff_not]
    omega

theorem filter_control (h : ∀ c ∈ cs, Printable c) : (cs.filter fun c => !isControl c) = cs := by
  rw [List.filter_eq_self]
  intro c hc
  rw [isControl_of_printable (h c hc)]
  rfl

theorem sanitize_renders {v : Value} (h : Renders cs v) (hspan : SpanFree cs)
    (hfence : NoFence cs) : sanitizeJsonText cs = cs := by
  obtain ⟨hne, htrimmed⟩ := h.trimmed
  have htrim := Text.trim_of_trimmed htrimmed hne
  rw [sanitize_spanFree (by rwa [htrim]) (by rwa [htrim]), htrim,
    filter_control (printable_of_renders h)]

end AiBuddy.Llm
