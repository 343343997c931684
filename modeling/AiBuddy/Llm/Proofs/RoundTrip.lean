import AiBuddy.Llm.Proofs.Cleaning
import AiBuddy.Llm.Proofs.Scan

/-!
# From a JSON text to its payload

The payload of a JSON object's text is the object again: for the text alone, inside of a fence, and
among prose. The cleaning does not know the strings of the text, so they must hold no reasoning span
and no fence.
-/

namespace AiBuddy.Llm

open Json

structure Prose (cs : List Char) : Prop where
  noMark : ∀ c ∈ cs, c ≠ '{' ∧ c ≠ '}' ∧ c ≠ '"'
  noFence : NoFence cs
  noThink : ∀ part, part <:+: cs → Text.dropLetters "<think>".toList part = none ∧
    Text.dropLetters "</think>".toList part = none
  noReasoning : ∀ part, part <:+: cs → reasoningOpening? part = none ∧
    reasoningClosing? part = none

/-- A text inside of a "```json" fence, with white space around it. -/
def fenced (lead text tail : List Char) : List Char :=
  "```json".toList ++ (lead ++ (text ++ (tail ++ "```".toList)))

/-- What `parse_structured_content` hands to validation for a content is the value: as the payload,
and as the nested object that is tried where the payload is not valid. -/
def Delivers (content : List Char) (v : Value) : Prop :=
  loadJsonPayload (sanitizeJsonText content) = some v ∧
    ∀ nested, (extractJsonObject (sanitizeJsonText content)).bind loadJsonPayload = some nested →
      nested = v

def IsBrace (c : Char) : Prop := c = '{' ∨ c = '}'

def noBrace (letters : List Char) : Bool :=
  letters.all fun letter => !Text.sameLetter letter '{' && !Text.sameLetter letter '}'

theorem IsBrace.breaks_letters {c : Char} (hc : IsBrace c) {letters : List Char}
    (h : noBrace letters = true) : Text.Breaks c (Text.dropLetters letters) := by
  simp only [noBrace, List.all_eq_true, Bool.and_eq_true, Bool.not_eq_true'] at h
  rcases hc with rfl | rfl
  · exact Text.breaks_dropLetters fun letter hletter => (h letter hletter).1
  · exact Text.breaks_dropLetters fun letter hletter => (h letter hletter).2

theorem IsBrace.dropBar {c : Char} (hc : IsBrace c) (front back : List Char) :
    Text.dropOne (fun c => decide (c = '|')) (front ++ c :: back) =
      Text.dropOne (fun c => decide (c = '|')) front ++ c :: back := by
  have hbar : decide (c = '|') = false := by rcases hc with rfl | rfl <;> decide
  exact Text.dropOne_break hbar front back

theorem IsBrace.breaks_name {c : Char} (hc : IsBrace c) : Text.Breaks c reasoningName? := by
  intro front back
  have hredacted : Text.dropOptional "redacted_".toList (front ++ c :: back) =
      Text.dropOptional "redacted_".toList front ++ c :: back := by
    rcases hc with rfl | rfl <;>
      exact Text.dropOptional_break (List.forall_iff_forall_mem.mp (by decide)) front back
  have hend : Text.Breaks c fun named =>
      Text.dropLetters ['>'] (Text.dropOne (fun c => decide (c = '|')) named) := by
    intro named more
    dsimp only
    rw [hc.dropBar, hc.breaks_letters rfl]
  rw [reasoningName?, hredacted, hc.breaks_letters rfl, reasoningName?]
  cases Text.dropLetters "reasoning".toList (Text.dropOptional "redacted_".toList front) with
  | none => rfl
  | some named => exact hend named back

theorem IsBrace.breaks_opening {c : Char} (hc : IsBrace c) : Text.Breaks c reasoningOpening? := by
  refine Text.Breaks.bind (hc.breaks_letters rfl) ?_
  intro front back
  dsimp only
  rw [hc.dropBar, hc.breaks_name]

theorem IsBrace.breaks_closing {c : Char} (hc : IsBrace c) : Text.Breaks c reasoningClosing? := by
  refine Text.Breaks.bind (hc.breaks_letters rfl) ?_
  intro front back
  dsimp only
  rw [hc.dropBar]
  exact Text.Breaks.bind (hc.breaks_letters rfl) hc.breaks_name _ _

theorem IsBrace.breaks_fence {c : Char} (hc : IsBrace c) :
    Text.Breaks c (Text.dropLetters "```".toList) := hc.breaks_letters rfl

theorem spanFree_around {front inner back : List Char} (hspan : SpanFree ('{' :: (inner ++ ['}'])))
    (hfront : ∀ part, part <:+ front →
      Text.dropLetters "<think>".toList part = none ∧ reasoningOpening? part = none)
    (hback : ∀ part, part <:+ back → (Text.dropLetters "<think>".toList part = none ∧
      Text.dropLetters "</think>".toList part = none) ∧
        reasoningOpening? part = none ∧ reasoningClosing? part = none) :
    SpanFree (front ++ '{' :: (inner ++ '}' :: back)) := by
  have hopen : IsBrace '{' := .inl rfl
  have hclose : IsBrace '}' := .inr rfl
  intro part hpart
  constructor
  · exact Text.span?_around (hopen.breaks_letters rfl) (hclose.breaks_letters rfl)
      (hclose.breaks_letters rfl) (fun rest hrest => (hfront rest hrest).1)
      (fun rest hrest => (hback rest hrest).1) (fun rest hrest => (hspan rest hrest).1) hpart
  · exact Text.span?_around hopen.breaks_opening hclose.breaks_opening hclose.breaks_closing
      (fun rest hrest => (hfront rest hrest).2) (fun rest hrest => (hback rest hrest).2)
      (fun rest hrest => (hspan rest hrest).2) hpart

theorem noFence_of_suffix {cs : List Char}
    (h : ∀ part, part <:+ cs → Text.dropLetters "```".toList part = none) : NoFence cs := by
  rintro part ⟨front, back, rfl⟩
  cases hdrop : Text.dropLetters "```".toList part with
  | none => rfl
  | some rest =>
    have hnone := h (part ++ back) ⟨front, by rw [List.append_assoc]⟩
    rw [Text.dropLetters_append hdrop] at hnone
    cases hnone

theorem noFence_around {front inner back : List Char} (hfence : NoFence ('{' :: (inner ++ ['}'])))
    (hfront : NoFence front) (hback : NoFence back) :
    NoFence (front ++ '{' :: (inner ++ '}' :: back)) := by
  have hopen : IsBrace '{' := .inl rfl
  have hclose : IsBrace '}' := .inr rfl
  refine noFence_of_suffix fun part hpart => ?_
  refine Text.mark?_around hopen.breaks_fence hclose.breaks_fence
    (fun rest hrest => hfront rest hrest.isInfix) ?_ (fun rest hrest => hback rest hrest.isInfix)
    hpart
  rintro rest ⟨before, hbefore⟩
  refine hfence rest ⟨before, ['}'], ?_⟩
  rw [hbefore]
  rfl

theorem trim_around {front text back : List Char} (hne : text ≠ []) (h : Text.Trimmed text) :
    Text.trim (front ++ (text ++ back)) =
      front.dropWhile Text.isSpace ++ (text ++ Text.trimEnd back) := by
  have hstop : ∀ {mid : List Char}, mid ≠ [] → (∀ c ∈ mid.head?, Text.isSpace c = false) →
      ∀ pre post : List Char, (pre ++ (mid ++ post)).dropWhile Text.isSpace =
        pre.dropWhile Text.isSpace ++ (mid ++ post) := by
    intro mid hmid hhead pre post
    cases mid with
    | nil => exact absurd rfl hmid
    | cons c mid =>
      rw [List.dropWhile_append]
      split
      next hempty =>
        rw [List.isEmpty_iff.mp hempty, List.cons_append,
          List.dropWhile_cons_of_neg (by simp [hhead c rfl])]
        rfl
      next => rfl
  rw [Text.trim, hstop hne h.1, Text.trimEnd, List.reverse_append, List.reverse_append,
    List.append_assoc, hstop (by simpa using hne) (by simpa using h.2)]
  simp [Text.trimEnd]

theorem dropWhile_to_brace {front cs : List Char} (hfront : ∀ c ∈ front, c ≠ '{')
    (hcs : cs.head? = some '{') : (front ++ cs).dropWhile (fun c => decide (c ≠ '{')) = cs := by
  induction front with
  | nil =>
    cases cs with
    | nil => rfl
    | cons c cs =>
      cases hcs
      rfl
  | cons c front ih =>
    rw [List.forall_mem_cons] at hfront
    rw [List.cons_append, List.dropWhile_cons_of_pos (by simp [hfront.1]), ih hfront.2]

theorem extract_renders {front text back : List Char} {members : Members}
    (h : Renders text (.obj members)) (hfront : ∀ c ∈ front, c ≠ '{') :
    extractJsonObject (front ++ (text ++ back)) = some text := by
  obtain ⟨inner, heq, -⟩ := h.braces
  have hhead : (text ++ back).head? = some '{' := by rw [heq]; rfl
  rw [extractJsonObject, dropWhile_to_brace hfront hhead, objectFrom_renders h]

theorem loadJsonPayload_renders {text : List Char} {v : Value} (h : Renders text v) :
    loadJsonPayload text = some v := by
  rw [loadJsonPayload, h.loads, Option.some_or]

theorem delivers_of_clean {content front text back : List Char} {members : Members}
    (h : Renders text (.obj members)) (hclean : sanitizeJsonText content = front ++ (text ++ back))
    (hfront : ∀ c ∈ front, c ≠ '{')
    (hwhole : Json.loads (front ++ (text ++ back)) = none ∨ front ++ (text ++ back) = text) :
    Delivers content (.obj members) := by
  have hextract : extractJsonObject (front ++ (text ++ back)) = some text :=
    extract_renders h hfront
  refine ⟨?_, ?_⟩
  · rw [hclean]
    rcases hwhole with hnone | htext
    · rw [loadJsonPayload, hnone, Option.none_or, hextract, Option.some_or, Option.bind_some,
        h.loads]
    · rw [htext, loadJsonPayload_renders h]
  · intro nested hnested
    rw [hclean, hextract, Option.bind_some, loadJsonPayload_renders h] at hnested
    cases hnested
    rfl

theorem delivers_text {text : List Char} {members : Members} (h : Renders text (.obj members))
    (hspan : SpanFree text) (hfence : NoFence text) : Delivers text (.obj members) := by
  have hclean : sanitizeJsonText text = [] ++ (text ++ []) := by
    rw [List.append_nil, List.nil_append, sanitize_renders h hspan hfence]
  refine delivers_of_clean h hclean (fun c hc => by cases hc) (.inr ?_)
  rw [List.append_nil, List.nil_append]

theorem delivers_prose {front text back : List Char} {members : Members}
    (h : Renders text (.obj members)) (hspan : SpanFree text) (hfence : NoFence text)
    (hfront : Prose front) (hback : Prose back)
    (hwhole : Json.loads (sanitizeJsonText (front ++ (text ++ back))) = none ∨
      sanitizeJsonText (front ++ (text ++ back)) = text) :
    Delivers (front ++ (text ++ back)) (.obj members) := by
  obtain ⟨hne, htrimmed⟩ := h.trimmed
  obtain ⟨inner, heq, -⟩ := h.braces
  have hstart : front.dropWhile Text.isSpace <:+: front := (List.dropWhile_suffix _).isInfix
  have hend : Text.trimEnd back <:+: back := by
    obtain ⟨spaces, -, hspaces⟩ := Text.trimEnd_append_spaces back
    exact ⟨[], spaces, by rw [List.nil_append, ← hspaces]⟩
  have htrim : Text.trim (front ++ (text ++ back)) =
      front.dropWhile Text.isSpace ++ (text ++ Text.trimEnd back) := trim_around hne htrimmed
  have hshape : Text.trim (front ++ (text ++ back)) =
      front.dropWhile Text.isSpace ++ '{' :: (inner ++ '}' :: Text.trimEnd back) := by
    rw [htrim, heq]
    simp
  have hclean : sanitizeJsonText (front ++ (text ++ back)) =
      (front.dropWhile Text.isSpace).filter (fun c => !isControl c) ++
        (text ++ (Text.trimEnd back).filter fun c => !isControl c) := by
    rw [sanitize_spanFree, htrim, List.filter_append, List.filter_append,
      filter_control (printable_of_renders h)]
    · rw [hshape]
      refine spanFree_around (by rwa [← heq]) ?_ ?_
      · intro part hpart
        have hinside := hpart.isInfix.trans hstart
        exact ⟨(hfront.noThink part hinside).1, (hfront.noReasoning part hinside).1⟩
      · intro part hpart
        have hinside := hpart.isInfix.trans hend
        exact ⟨hback.noThink part hinside, hback.noReasoning part hinside⟩
    · rw [hshape]
      exact noFence_around (by rwa [← heq]) (hfront.noFence.part hstart) (hback.noFence.part hend)
  rw [hclean] at hwhole
  refine delivers_of_clean h hclean ?_ hwhole
  intro c hc
  exact (hfront.noMark c (hstart.subset (List.mem_of_mem_filter hc))).1

theorem closing_of_notMem {cs : List Char} (h : '<' ∉ cs) :
    Text.dropLetters "</think>".toList cs = none ∧ reasoningClosing? cs = none := by
  have hmark : ∀ {letters rest : List Char},
      Text.dropLetters ('<' :: letters) cs = some rest → False :=
    fun hdrop => h (dropLetters_mark (sameLetter_mark (by decide)) hdrop)
  constructor
  · cases hdrop : Text.dropLetters "</think>".toList cs with
    | none => rfl
    | some rest => exact (hmark hdrop).elim
  · rw [reasoningClosing?]
    cases hdrop : Text.dropLetters ['<'] cs with
    | none => rfl
    | some rest => exact (hmark hdrop).elim

theorem notMem_blank {c : Char} {cs : List Char} (h : ∀ d ∈ cs, Text.isSpace d = true)
    (hc : Text.isSpace c = false) : c ∉ cs := by
  intro hmem
  rw [h c hmem] at hc
  cases hc

theorem no_fence_before {inner tail part back : List Char}
    (hfence : NoFence ('{' :: (inner ++ ['}']))) (htail : ∀ c ∈ tail, Text.isSpace c = true)
    (hpart : part <:+ '{' :: (inner ++ ['}']) ++ tail) (hne : part ≠ []) :
    Text.dropLetters "```".toList (part ++ back) = none := by
  have hspace : part <:+ tail → Text.dropLetters "```".toList (part ++ back) = none := by
    intro hpart
    cases part with
    | nil => exact absurd rfl hne
    | cons c cs =>
      have hblank := htail c (hpart.subset List.mem_cons_self)
      have hsame : Text.sameLetter '`' c = false := by
        rw [Bool.eq_false_iff]
        intro hsame
        rw [sameLetter_mark (by decide) c hsame] at hblank
        exact absurd hblank (by decide)
      change Text.dropLetters ('`' :: "``".toList) (c :: (cs ++ back)) = none
      rw [Text.dropLetters, if_neg (by simp [hsame])]
  have hclose : IsBrace '}' := .inr rfl
  have hshape : '{' :: (inner ++ ['}']) ++ tail = '{' :: inner ++ '}' :: tail := by simp
  rw [hshape] at hpart
  rcases Text.suffix_append_cases hpart with hpart | ⟨inside, hinside, rfl⟩
  · rcases List.suffix_cons_iff.mp hpart with rfl | hpart
    · rfl
    · exact hspace hpart
  · rw [List.append_assoc, List.cons_append, hclose.breaks_fence, hfence inside, Option.map_none]
    obtain ⟨before, hbefore⟩ := hinside
    exact ⟨before, ['}'], by rw [hbefore]; rfl⟩

theorem fenceAt?_fenced {lead inner tail : List Char} (hfence : NoFence ('{' :: (inner ++ ['}'])))
    (hlead : ∀ c ∈ lead, Text.isSpace c = true) (htail : ∀ c ∈ tail, Text.isSpace c = true) :
    fenceAt? (fenced lead ('{' :: (inner ++ ['}'])) tail) =
      some ('{' :: (inner ++ ['}']) ++ tail) := by
  have hopened : Text.dropLetters "```".toList (fenced lead ('{' :: (inner ++ ['}'])) tail) =
      some ("json".toList ++ (lead ++ ('{' :: (inner ++ ['}']) ++ (tail ++ "```".toList)))) := rfl
  have hjson : ∀ cs, Text.dropOptional "json".toList ("json".toList ++ cs) = cs := fun _ => rfl
  have huntil : Text.until? (Text.dropLetters "```".toList)
      ('{' :: (inner ++ ['}']) ++ tail ++ "```".toList) =
        some ('{' :: (inner ++ ['}']) ++ tail, []) :=
    Text.until?_append (fun part hpart hne => no_fence_before hfence htail hpart hne) rfl
  rw [fenceAt?, hopened, Option.bind_some, hjson,
    Text.dropWhile_spaces_append hlead (by rintro c ⟨⟩; decide), ← List.append_assoc, huntil,
    Option.map_some]

theorem fenced_last {lead text tail : List Char} :
    ∃ front, fenced lead text tail = front ++ ['`'] := by
  have hmarks : "```".toList = ['`', '`'] ++ ['`'] := rfl
  refine ⟨"```json".toList ++ (lead ++ (text ++ (tail ++ ['`', '`']))), ?_⟩
  unfold fenced
  rw [hmarks]
  generalize "```json".toList = marks
  simp

theorem fenced_braces {lead inner tail : List Char} :
    fenced lead ('{' :: (inner ++ ['}'])) tail =
      ("```json".toList ++ lead) ++ '{' :: (inner ++ '}' :: (tail ++ "```".toList)) := by
  unfold fenced
  generalize "```json".toList = opening, "```".toList = closing
  simp

theorem delivers_fenced {lead text tail : List Char} {members : Members}
    (h : Renders text (.obj members)) (hspan : SpanFree text) (hfence : NoFence text)
    (hlead : ∀ c ∈ lead, Text.isSpace c = true) (htail : ∀ c ∈ tail, Text.isSpace c = true) :
    Delivers (fenced lead text tail) (.obj members) := by
  obtain ⟨hne, htrimmed⟩ := h.trimmed
  obtain ⟨inner, rfl, -⟩ := h.braces
  have htrim : Text.trim (fenced lead ('{' :: (inner ++ ['}'])) tail) =
      fenced lead ('{' :: (inner ++ ['}'])) tail := by
    refine Text.trim_of_trimmed ⟨?_, ?_⟩ (List.cons_ne_nil _ _)
    · intro c hc
      cases hc
      decide
    · intro c hc
      obtain ⟨front, hfront⟩ := fenced_last
      rw [hfront, List.getLast?_concat] at hc
      cases hc
      decide
  have hmark : '<' ∉ tail ++ "```".toList := by
    rw [List.mem_append, not_or]
    exact ⟨notMem_blank htail (by decide), by decide⟩
  have hfree : SpanFree (fenced lead ('{' :: (inner ++ ['}'])) tail) := by
    have hfront : NoReasoningTag ("```json".toList ++ lead) := by
      refine noReasoningTag_of_notMem ?_
      rw [List.mem_append, not_or]
      exact ⟨by decide, notMem_blank hlead (by decide)⟩
    rw [fenced_braces]
    refine spanFree_around hspan (fun part hpart => hfront part hpart.isInfix) ?_
    intro part hpart
    have hpartMark : '<' ∉ part := fun hmem => hmark (hpart.subset hmem)
    have hopen := noReasoningTag_of_notMem hpartMark part (List.infix_refl part)
    have hclose := closing_of_notMem hpartMark
    exact ⟨⟨hopen.1, hclose.1⟩, hopen.2, hclose.2⟩
  have hsearch : Text.search? fenceAt? (fenced lead ('{' :: (inner ++ ['}'])) tail) =
      some ('{' :: (inner ++ ['}']) ++ tail) := by
    have hat := fenceAt?_fenced hfence hlead htail
    cases hcs : fenced lead ('{' :: (inner ++ ['}'])) tail with
    | nil => cases hcs
    | cons c cs =>
      rw [hcs] at hat
      rw [Text.search?, hat, Option.some_or]
  have hclean : sanitizeJsonText (fenced lead ('{' :: (inner ++ ['}'])) tail) =
      [] ++ ('{' :: (inner ++ ['}']) ++ []) := by
    have hgroup : Text.trim ('{' :: (inner ++ ['}']) ++ tail) = '{' :: (inner ++ ['}']) := by
      have hnil : ∀ c ∈ ([] : List Char), Text.isSpace c = true := fun c hc => by cases hc
      exact Text.trim_append_spaces htrimmed hne hnil htail
    rw [sanitizeJsonText, htrim, hfree.removeMatches, unfenced, hsearch]
    dsimp only
    rw [hgroup, filter_control (printable_of_renders h), List.append_nil, List.nil_append]
  refine delivers_of_clean h hclean (fun c hc => by cases hc) (.inr ?_)
  rw [List.append_nil, List.nil_append]

theorem renders_of_loads {text : List Char} {v : Value}
    (h : Json.loads text = some v ∧ Text.trim text = text) : Renders text v := by
  have hrenders := (Json.loads_trim h.1).2
  rwa [h.2] at hrenders

theorem prose_of_letters {cs : List Char}
    (h : ∀ c ∈ cs, c ≠ '{' ∧ c ≠ '}' ∧ c ≠ '"' ∧ c ≠ '`' ∧ c ≠ '<') : Prose cs := by
  have hopen : '<' ∉ cs := fun hmem => (h '<' hmem).2.2.2.2 rfl
  refine ⟨fun c hc => ⟨(h c hc).1, (h c hc).2.1, (h c hc).2.2.1⟩,
    noFence_of_notMem fun hmem => (h '`' hmem).2.2.2.1 rfl, ?_, ?_⟩
  · intro part hpart
    have hpartOpen : '<' ∉ part := fun hmem => hopen (hpart.subset hmem)
    exact ⟨(noReasoningTag_of_notMem hpartOpen part (List.infix_refl part)).1,
      (closing_of_notMem hpartOpen).1⟩
  · intro part hpart
    have hpartOpen : '<' ∉ part := fun hmem => hopen (hpart.subset hmem)
    exact ⟨(noReasoningTag_of_notMem hpartOpen part (List.infix_refl part)).2,
      (closing_of_notMem hpartOpen).2⟩

end AiBuddy.Llm
