import AiBuddy.Llm.Proofs.Cleaning
import AiBuddy.Llm.Proofs.Truncated

/-!
# Plain answers

`generate` returns a plain content whole exactly when no text of the message is, holds or can be
closed to a JSON text, and no tool call has other arguments: JSON of another field and the arguments
of a tool call come before the content.
-/

namespace AiBuddy.Llm

open Json (Value Items Members)

variable (python : Python)

structure Carries (reply : Value) (message : Members) : Prop where
  choice : ∃ data choice usage, choiceOf python reply = .ok (data, choice) ∧
    dictAt python choice "message" = .ok message ∧ dictAt python data "usage" = .ok usage ∧
    ∀ name ∈ ["prompt_tokens", "completion_tokens", "total_tokens"],
      ∃ count, countAt python usage name = .ok count

structure IsPlainText (content : String) : Prop where
  hasText : hasText content = true
  notJson : Json.loads content.toList = none
  noTag : NoReasoningTag content.toList
  noFence : NoFence content.toList

/-- The condition on a message whose content is plain: its tool calls can be read; and either the
content is JSON inside of wider white space, or no text of the message is, holds or can be closed to
JSON, and the first arguments of a tool call that are not blank, if any, are the content. -/
def NothingBefore (message : Members) (content : String) : Prop :=
  ∃ arguments, toolCallArgumentTexts python message = some arguments ∧
    (Json.loads (Text.trim content.toList) ≠ none ∨
      (∀ candidate ∈ candidatesOf (messageParts python message arguments),
        jsonIn candidate = none ∧ closeTruncatedJson candidate = none) ∧
      ∀ raw, arguments.find? hasText = some raw → Text.strip raw = Text.strip content)

theorem loads_of_jsonIn {candidate text : List Char} (h : jsonIn candidate = some text) :
    Json.loads text ≠ none := by
  unfold jsonIn at h
  split at h
  next hload =>
    cases h
    exact Option.isSome_iff_ne_none.mp hload
  next =>
    rw [Option.filter_eq_some_iff] at h
    exact Option.isSome_iff_ne_none.mp h.2

theorem loads_of_closed {candidate text : List Char}
    (h : closeTruncatedJson candidate = some text) :
    Json.loads text ≠ none := by
  unfold closeTruncatedJson at h
  dsimp only at h
  split at h
  next => cases h
  next =>
    rw [Option.bind_eq_some_iff] at h
    obtain ⟨⟨stack, place⟩, -, h⟩ := h
    dsimp only at h
    split at h
    next hload =>
      cases h
      exact Option.isSome_iff_ne_none.mp hload
    next => cases h

theorem first_eq_none_iff {candidates : List (List Char)} :
    (firstJson candidates).or (firstClosed candidates) = none ↔
      ∀ candidate ∈ candidates, jsonIn candidate = none ∧ closeTruncatedJson candidate = none := by
  rw [Option.or_eq_none_iff, firstJson, firstClosed, List.findSome?_eq_none_iff,
    List.findSome?_eq_none_iff]
  constructor
  · rintro ⟨hjson, hclosed⟩ candidate hmem
    exact ⟨hjson candidate hmem, hclosed candidate hmem⟩
  · intro h
    exact ⟨fun candidate hmem => (h candidate hmem).1, fun candidate hmem => (h candidate hmem).2⟩

theorem loads_of_first {candidates : List (List Char)} {text : List Char}
    (h : (firstJson candidates).or (firstClosed candidates) = some text) :
    Json.loads text ≠ none := by
  rw [Option.or_eq_some_iff] at h
  rcases h with h | ⟨-, h⟩
  · obtain ⟨candidate, -, htext⟩ := List.exists_of_findSome?_eq_some h
    exact loads_of_jsonIn htext
  · obtain ⟨candidate, -, htext⟩ := List.exists_of_findSome?_eq_some h
    exact loads_of_closed htext

theorem assistantMessageText_eq {message : Members} {arguments : List String}
    (harguments : toolCallArgumentTexts python message = some arguments) :
    assistantMessageText python message = some
      (match (firstJson (candidatesOf (messageParts python message arguments))).or
          (firstClosed (candidatesOf (messageParts python message arguments))) with
        | some text => .ofList text
        | none =>
          ((arguments.find? hasText).or ((spokenTexts python message).find? hasText)).getD "") := by
  rw [assistantMessageText, harguments, Option.map_some]
  dsimp only
  change some (((firstJson _).map _ |>.or ((firstClosed _).map _ |>.or _)).getD _) = _
  cases firstJson (candidatesOf (messageParts python message arguments)) with
  | some text => simp
  | none =>
    cases firstClosed (candidatesOf (messageParts python message arguments)) with
    | some text => simp
    | none => simp

theorem ne_empty_of_hasText {content : String} (h : hasText content = true) : content ≠ "" := by
  rintro rfl
  revert h
  decide

theorem spokenTexts_content {message : Members} {content : String}
    (h : get message "content" = .str content) (hne : content ≠ "") :
    ∃ rest, spokenTexts python message = content :: rest := by
  rw [spokenTexts, h, splitContentChunks, if_neg hne]
  exact ⟨_, rfl⟩

theorem find?_spokenTexts {message : Members} {content : String}
    (h : get message "content" = .str content) (htext : hasText content = true) :
    (spokenTexts python message).find? hasText = some content := by
  obtain ⟨rest, hrest⟩ := spokenTexts_content python h (ne_empty_of_hasText htext)
  rw [hrest, List.find?_cons_of_pos htext]

theorem firstJson_content {message : Members} {arguments : List String} {content : String}
    (h : get message "content" = .str content) (hplain : IsPlainText content)
    (hload : Json.loads (Text.trim content.toList) ≠ none) :
    firstJson (candidatesOf (messageParts python message arguments)) =
      some (Text.trim content.toList) := by
  obtain ⟨v, hv⟩ := Option.ne_none_iff_exists'.mp hload
  have hrenders := (Json.loads_trim hv).2
  rw [trim_trim] at hrenders
  have hne := ne_empty_of_hasText hplain.hasText
  obtain ⟨rest, hrest⟩ := spokenTexts_content python h hne
  have hclean : sanitizeJsonText content.toList = Text.trim content.toList := by
    rw [sanitize_plain hplain.noTag hplain.noFence,
      filter_control (Json.printable_of_renders hrenders)]
  rw [messageParts, hrest, candidatesOf]
  simp only [List.cons_append, List.filter_cons, hne, ne_eq, not_false_eq_true, decide_true,
    if_true,
    List.map_cons, hclean, hrenders.trimmed.1, firstJson, List.findSome?_cons, jsonIn, hv,
    Option.isSome_some]

theorem strip_toList {first second : String} :
    Text.strip first = Text.strip second ↔
      Text.trim first.toList = Text.trim second.toList := by
  rw [← String.toList_inj, Text.toList_strip, Text.toList_strip]

theorem assistantMessageText_plain_iff {message : Members} {content : String}
    (h : get message "content" = .str content) (hplain : IsPlainText content) :
    (∃ text, assistantMessageText python message = some text ∧
      Text.strip text = Text.strip content) ↔ NothingBefore python message content := by
  constructor
  · rintro ⟨text, htext, hstrip⟩
    cases harguments : toolCallArgumentTexts python message with
    | none =>
      rw [assistantMessageText, harguments] at htext
      cases htext
    | some arguments =>
      refine ⟨arguments, harguments, ?_⟩
      rw [assistantMessageText_eq python harguments, Option.some.injEq] at htext
      cases hfirst : (firstJson (candidatesOf (messageParts python message arguments))).or
          (firstClosed (candidatesOf (messageParts python message arguments))) with
      | some found =>
        -- A JSON text that equals the content up to white space makes the content one.
        rw [hfirst] at htext
        left
        obtain ⟨v, hv⟩ := Option.ne_none_iff_exists'.mp (loads_of_first hfirst)
        rw [← htext, strip_toList, String.toList_ofList] at hstrip
        rw [← hstrip, (Json.loads_trim hv).1]
        simp
      | none =>
        rw [hfirst] at htext
        refine .inr ⟨first_eq_none_iff.mp hfirst, ?_⟩
        intro raw hraw
        dsimp only at htext
        rw [hraw, Option.some_or, Option.getD_some] at htext
        rw [htext, hstrip]
  · rintro ⟨arguments, harguments, hcases⟩
    refine ⟨_, assistantMessageText_eq python harguments, ?_⟩
    rcases hcases with hload | ⟨hnone, hraw⟩
    · rw [firstJson_content python h hplain hload, Option.some_or]
      dsimp only
      rw [strip_toList, String.toList_ofList, trim_trim]
    · rw [first_eq_none_iff.mpr hnone]
      dsimp only
      rw [find?_spokenTexts python h hplain.hasText]
      cases hfind : arguments.find? hasText with
      | none => rfl
      | some raw => exact hraw raw hfind

theorem Carries.message {reply : Value} {message : Members} (h : Carries python reply message) :
    messageOf python reply = .ok message := by
  obtain ⟨data, choice, -, hchoice, hmessage, -⟩ := h.choice
  rw [messageOf, hchoice]
  exact hmessage

theorem Carries.returns {reply : Value} {message : Members} (h : Carries python reply message)
    {text : String} (htext : assistantMessageText python message = some text)
    (hnotBlank : hasText text = true) :
    ∃ response, generate python reply = .ok response ∧ response.content = text := by
  obtain ⟨data, choice, usage, hchoice, hmessage, husage, hcounts⟩ := h.choice
  simp only [List.forall_mem_cons, List.not_mem_nil, false_imp_iff, implies_true, and_true]
    at hcounts
  obtain ⟨⟨_, hprompt⟩, ⟨_, hcompletion⟩, ⟨_, htotal⟩⟩ := hcounts
  have hresponse : ∃ response, responseOf python data choice text = .ok response := by
    simp [responseOf, hnotBlank, husage, hprompt, hcompletion, htotal, bind, Except.bind]
  obtain ⟨response, hresponse⟩ := hresponse
  refine ⟨response, ?_, responseOf_content python hresponse⟩
  simp only [generate, bind_eq_ok, Prod.exists]
  refine ⟨data, choice, hchoice, message, hmessage, ?_⟩
  rw [htext]
  exact hresponse

def replyOf (message : Members) : Value :=
  .obj (.cons "choices" (.arr (.cons (.obj (.cons "message" (.obj message) .nil)) .nil)) .nil)

def plainAnswer : String := "The report is sent."

def answerWithCall : Members :=
  .cons "content" (.str plainAnswer) (.cons "tool_calls" (.arr (.cons (.obj (.cons "function"
    (.obj (.cons "arguments" (.str "\x7b\"id\": 1\x7d") .nil)) .nil)) .nil)) .nil)

theorem plainAnswer_isPlainText : IsPlainText plainAnswer where
  hasText := by decide
  notJson := by decide +kernel
  noTag := noReasoningTag_of_notMem (by decide)
  noFence := noFence_of_notMem (by decide)

theorem carries_replyOf {message : Members} (h : message ≠ .nil) :
    Carries plainPython (replyOf message) message := by
  refine ⟨_, _, .nil, rfl, ?_, rfl, ?_⟩
  · simp [dictAt, get, Json.Members.get?, Python.or, Python.truthy, h]
  · simp [countAt, get, Json.Members.get?, Python.or, Python.truthy, plainPython]

end AiBuddy.Llm
