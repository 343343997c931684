import AiBuddy.Llm.Proofs.Scan
import AiBuddy.Llm.Structured

/-!
# Cut answers and the larger budget

A text that stops in the middle of its JSON object can be used in one way only: closed. Where
neither the closed text nor the JSON text of another field is accepted by the schema,
`generate_structured` asks again with the larger budget, and what it returns comes from a later
reply.
-/

namespace AiBuddy.Llm

open Json (Value Items Members)

variable (python : Python) {α : Type} (schema : ResponseSchema α)

def firstJson (candidates : List (List Char)) : Option (List Char) := candidates.findSome? jsonIn

def firstClosed (candidates : List (List Char)) : Option (List Char) :=
  candidates.findSome? closeTruncatedJson

/-- `parse_structured_content` takes a text for an answer. -/
def Accepts (text : List Char) : Prop := ∃ value, parseStructuredContent python schema text =
    .ok value

variable {text : List Char}

theorem jsonIn_cutShort (h : CutShort text) : jsonIn text = none := by
  rw [jsonIn, loads_cutShort h, extract_cutShort h]
  rfl

theorem firstJson_cutShort {before after : List (List Char)} {cut : List Char} (h : CutShort cut) :
    firstJson (before ++ cut :: after) = firstJson (before ++ after) := by
  simp [firstJson, List.findSome?_append, jsonIn_cutShort h]

theorem loadJsonPayload_eq_none (hjson : jsonIn text = none)
    (hclosed : closeTruncatedJson text = none) : loadJsonPayload text = none := by
  unfold jsonIn at hjson
  split at hjson
  next => cases hjson
  next hload =>
    rw [Option.not_isSome_iff_eq_none] at hload
    rw [loadJsonPayload, hload, Option.none_or, hclosed, Option.or_none]
    cases hextract : extractJsonObject text with
    | none => rfl
    | some extracted =>
      rw [hextract, Option.filter_some] at hjson
      split at hjson
      next => cases hjson
      next hnot => rwa [Option.not_isSome_iff_eq_none] at hnot

theorem not_accepts_of_payload (h : loadJsonPayload (sanitizeJsonText text) = none) :
    ¬Accepts python schema text := by
  rintro ⟨value, hvalue⟩
  rw [parseStructuredContent, h] at hvalue
  cases hvalue

theorem loadJsonPayload_nil : loadJsonPayload [] = none := by decide +kernel

theorem not_accepts_part {parts : List String} {part : String} (hmem : part ∈ parts)
    (hjson : firstJson (candidatesOf parts) = none)
    (hclosed : firstClosed (candidatesOf parts) = none) : ¬Accepts python schema part.toList := by
  apply not_accepts_of_payload
  by_cases hempty : sanitizeJsonText part.toList = []
  · rw [hempty]
    exact loadJsonPayload_nil
  · have hpart : part ≠ "" := by
      intro heq
      rw [heq] at hempty
      exact hempty (by decide +kernel)
    have hcandidate : sanitizeJsonText part.toList ∈ candidatesOf parts := by
      simp only [candidatesOf, List.mem_filter, List.mem_map, decide_eq_true_eq]
      exact ⟨⟨part, ⟨hmem, hpart⟩, rfl⟩, hempty⟩
    exact loadJsonPayload_eq_none (List.findSome?_eq_none_iff.mp hjson _ hcandidate)
      (List.findSome?_eq_none_iff.mp hclosed _ hcandidate)

theorem accepted_text {message : Members} {arguments : List String} {content : String}
    (harguments : toolCallArgumentTexts python message = some arguments)
    (hcontent : assistantMessageText python message = some content)
    (h : Accepts python schema content.toList) :
    (firstJson (candidatesOf (messageParts python message arguments))).or
      (firstClosed (candidatesOf (messageParts python message arguments))) =
        some content.toList := by
  rw [assistantMessageText, harguments, Option.map_some, Option.some.injEq] at hcontent
  dsimp only at hcontent
  change ((firstJson _).map _ |>.or ((firstClosed _).map _ |>.or _)).getD _ = _ at hcontent
  cases hjson : firstJson (candidatesOf (messageParts python message arguments)) with
  | some text =>
    rw [hjson] at hcontent
    rw [← hcontent]
    simp
  | none =>
    cases hclosed : firstClosed (candidatesOf (messageParts python message arguments)) with
    | some text =>
      rw [hjson, hclosed] at hcontent
      rw [← hcontent]
      simp
    | none =>
      exfalso
      rw [hjson, hclosed] at hcontent
      simp only [Option.map_none, Option.none_or] at hcontent
      cases hraw : (arguments.find? hasText).or ((spokenTexts python message).find? hasText) with
      | none =>
        rw [hraw] at hcontent
        rw [← hcontent] at h
        exact not_accepts_of_payload python schema (by decide +kernel) h
      | some raw =>
        rw [hraw] at hcontent
        have hmem : raw ∈ messageParts python message arguments := by
          rw [Option.or_eq_some_iff] at hraw
          simp only [messageParts, List.mem_append]
          rcases hraw with hraw | ⟨-, hraw⟩
          · exact .inr (List.mem_of_find?_eq_some hraw)
          · exact .inl (.inl (List.mem_of_find?_eq_some hraw))
        rw [← hcontent] at h
        exact not_accepts_part python schema hmem hjson hclosed h

variable (replies : Nat → Except CallError Value)

def ParsedAt (number : Nat) (value : α) : Prop :=
  ∃ response, (replies number).bind (generate python) = .ok response ∧
    parseStructuredContent python schema response.content.toList = .ok value

def CutAt (call : Call) : Prop :=
  ∃ response, (replies call.number).bind (generate python) = .ok response ∧
    outputTruncated python response call.budget = true ∧
    ¬Accepts python schema response.content.toList

inductive BudgetStep (lastAttempt : Bool) (next : Nat → Run α) (budget : Nat) (budgets : List Nat)
    (number : Nat) : Run α → Prop
  | failed (error : StructuredError)
      (h : budgets ≠ [] → ¬CutAt python schema replies ⟨number, budget, false⟩) :
      BudgetStep lastAttempt next budget budgets number
        ⟨[⟨number, budget, budgets.isEmpty⟩], .error error⟩
  | accepted {value : α} (h : ParsedAt python schema replies number value) :
      BudgetStep lastAttempt next budget budgets number
        ⟨[⟨number, budget, budgets.isEmpty⟩], .ok (number, value)⟩
  | larger (h : budgets ≠ []) :
      BudgetStep lastAttempt next budget budgets number
        ((overBudgets python schema replies lastAttempt next budgets (number + 1)).after
          ⟨number, budget, budgets.isEmpty⟩)
  | otherMode (h : budgets ≠ [] → ¬CutAt python schema replies ⟨number, budget, false⟩) :
      BudgetStep lastAttempt next budget budgets number
        ((next (number + 1)).after ⟨number, budget, budgets.isEmpty⟩)

theorem overBudgets_step (lastAttempt : Bool) (next : Nat → Run α) (budget : Nat)
    (budgets : List Nat) (number : Nat) :
    BudgetStep python schema replies lastAttempt next budget budgets number
      (overBudgets python schema replies lastAttempt next (budget :: budgets) number) := by
  have hnone : ∀ error, (replies number).bind (generate python) = .error error →
      budgets ≠ [] → ¬CutAt python schema replies ⟨number, budget, false⟩ := by
    rintro error herror - ⟨response, hresponse, -, -⟩
    rw [herror] at hresponse
    cases hresponse
  rw [overBudgets]
  cases hreply : (replies number).bind (generate python) with
  | error error =>
    cases error with
    | raised => exact .failed _ (hnone _ hreply)
    | provider reason =>
      dsimp only
      split
      · exact .failed _ (hnone _ hreply)
      · exact .otherMode (hnone _ hreply)
  | ok response =>
    dsimp only
    cases hparse : parseStructuredContent python schema response.content.toList with
    | ok value => exact .accepted ⟨response, hreply, hparse⟩
    | error outcome =>
      dsimp only
      split
      next hlarger =>
        refine .larger ?_
        simp only [Bool.and_eq_true, Bool.not_eq_true', List.isEmpty_eq_false_iff] at hlarger
        exact hlarger.2
      next hlarger =>
        have hnotCut : budgets ≠ [] → ¬CutAt python schema replies ⟨number, budget, false⟩ := by
          rintro hne ⟨other, hother, htruncated, -⟩
          rw [hreply, Except.ok.injEq] at hother
          rw [hother] at hlarger
          apply hlarger
          rw [htruncated, Bool.true_and, Bool.not_eq_true', List.isEmpty_eq_false_iff]
          exact hne
        split
        · exact .failed _ hnotCut
        · exact .otherMode hnotCut

def EndsAtLast (run : Run α) (first : Nat) : Prop :=
  ∀ number value, run.result = .ok (number, value) → first ≤ number ∧
    ParsedAt python schema replies number value ∧ ∀ call ∈ run.calls, call.number ≤ number

def Enlarges (run : Run α) : Prop :=
  ∀ call ∈ run.calls, call.final = false → CutAt python schema replies call →
    ∃ larger ∈ run.calls, larger.number = call.number + 1 ∧ call.budget < larger.budget

variable {call : Call}

theorem EndsAtLast.after {run : Run α}
    (h : EndsAtLast python schema replies run (call.number + 1)) :
    EndsAtLast python schema replies (run.after call) call.number := by
  intro number value hresult
  obtain ⟨hfirst, hparsed, hcalls⟩ := h number value hresult
  refine ⟨by omega, hparsed, ?_⟩
  intro other hother
  rcases List.mem_cons.mp hother with rfl | hother
  · omega
  · exact hcalls other hother

variable {lastAttempt : Bool}

theorem overBudgets_endsAtLast {next : Nat → Run α}
    (hnext : ∀ number, EndsAtLast python schema replies (next number) number) (budgets : List Nat)
    (number : Nat) :
    EndsAtLast python schema replies
      (overBudgets python schema replies lastAttempt next budgets number) number := by
  induction budgets generalizing number with
  | nil => exact hnext number
  | cons budget budgets ih =>
    have hstep := overBudgets_step python schema replies lastAttempt next budget budgets number
    generalize overBudgets python schema replies lastAttempt next (budget :: budgets) number = run
      at hstep
    cases hstep with
    | failed error _ =>
      intro last value hresult
      cases hresult
    | accepted hparsed =>
      intro last value hresult
      cases hresult
      refine ⟨le_refl _, hparsed, ?_⟩
      intro call hcall
      rw [List.mem_singleton.mp hcall]
    | larger _ => exact (ih (number + 1)).after
    | otherMode _ => exact (hnext (number + 1)).after

variable {budgets : List Nat}

theorem first_mem_calls {next : Nat → Run α} {budget : Nat} {number : Nat} :
    ⟨number, budget, budgets.isEmpty⟩ ∈
      (overBudgets python schema replies lastAttempt next (budget :: budgets) number).calls := by
  have hstep := overBudgets_step python schema replies lastAttempt next budget budgets number
  generalize overBudgets python schema replies lastAttempt next (budget :: budgets) number = run
    at hstep
  cases hstep <;> exact List.mem_cons_self

theorem Enlarges.after {run : Run α} (h : Enlarges python schema replies run)
    (hcall : call.final = false → CutAt python schema replies call →
      ∃ larger ∈ run.calls, larger.number = call.number + 1 ∧ call.budget < larger.budget) :
    Enlarges python schema replies (run.after call) := by
  intro other hother hfinal hcut
  rcases List.mem_cons.mp hother with rfl | hother
  · obtain ⟨larger, hmem, hlarger⟩ := hcall hfinal hcut
    exact ⟨larger, List.mem_cons_of_mem _ hmem, hlarger⟩
  · obtain ⟨larger, hmem, hlarger⟩ := h other hother hfinal hcut
    exact ⟨larger, List.mem_cons_of_mem _ hmem, hlarger⟩

theorem overBudgets_enlarges {next : Nat → Run α}
    (hnext : ∀ number, Enlarges python schema replies (next number))
    (hbudgets : budgets.Pairwise (· < ·)) (number : Nat) :
    Enlarges python schema replies
      (overBudgets python schema replies lastAttempt next budgets number) := by
  induction budgets generalizing number with
  | nil => exact hnext number
  | cons budget budgets ih =>
    rw [List.pairwise_cons] at hbudgets
    have hstep := overBudgets_step python schema replies lastAttempt next budget budgets number
    generalize overBudgets python schema replies lastAttempt next (budget :: budgets) number = run
      at hstep
    -- A call that is neither final nor followed by a larger budget was not cut off.
    have hnone : ∀ run : Run α, (budgets ≠ [] →
      ¬CutAt python schema replies ⟨number, budget, false⟩) →
        (⟨number, budget, budgets.isEmpty⟩ : Call).final = false →
        CutAt python schema replies ⟨number, budget, budgets.isEmpty⟩ →
        ∃ larger ∈ run.calls, larger.number = number + 1 ∧ budget < larger.budget := by
      intro run hnot hfinal hcut
      exact absurd hcut (hnot (List.isEmpty_eq_false_iff.mp hfinal))
    cases hstep with
    | failed error hnot =>
      have hempty : Enlarges python schema replies ⟨[], .error error⟩ := by
        intro call hcall
        cases hcall
      exact hempty.after python schema replies (hnone _ hnot)
    | accepted hparsed =>
      intro call hcall hfinal hcut
      rw [List.mem_singleton.mp hcall] at hcut
      obtain ⟨response, hresponse, -, hrejected⟩ := hcut
      obtain ⟨other, hother, hvalue⟩ := hparsed
      rw [hresponse, Except.ok.injEq] at hother
      rw [← hother] at hvalue
      exact absurd ⟨_, hvalue⟩ hrejected
    | larger hne =>
      refine (ih hbudgets.2 (number + 1)).after python schema replies fun _ _ => ?_
      cases budgets with
      | nil => exact absurd rfl hne
      | cons second others =>
        exact ⟨_, first_mem_calls python schema replies,
          rfl, hbudgets.1 second List.mem_cons_self⟩
    | otherMode hnot => exact (hnext (number + 1)).after python schema replies (hnone _ hnot)

theorem outputBudgetsFor_increase {settings : BudgetSettings} {schemaName : String}
    {requested : Option Nat} :
    (outputBudgetsFor settings schemaName requested).Pairwise (· < ·) := by
  unfold outputBudgetsFor
  dsimp only
  split
  · simp
  · split
    · simp
    · rw [List.pairwise_pair]
      omega

theorem overAttempts_run (hbudgets : budgets.Pairwise (· < ·)) (attempts number : Nat) :
    EndsAtLast python schema replies
        (overAttempts python schema replies budgets attempts number) number ∧
      Enlarges python schema replies
        (overAttempts python schema replies budgets attempts number) := by
  induction attempts generalizing number with
  | zero =>
    refine ⟨?_, ?_⟩
    · intro last value hresult
      cases hresult
    · intro call hcall
      cases hcall
  | succ attempts ih =>
    exact ⟨overBudgets_endsAtLast python schema replies (fun n => (ih n).1) budgets number,
      overBudgets_enlarges python schema replies (fun n => (ih n).2) hbudgets number⟩

/-- A reply stops at the limit of a budget in the middle of its JSON text: the text `cut` of its
message, as the cleaning leaves it, between the other texts. -/
structure StopsInJson (reply : Value) (budget : Nat) (before : List (List Char)) (cut : List Char)
    (after : List (List Char)) : Prop where
  truncated : ∃ response, generate python reply = .ok response ∧
    outputTruncated python response budget = true
  candidates : ∃ message arguments, messageOf python reply = .ok message ∧
    toolCallArgumentTexts python message = some arguments ∧
    candidatesOf (messageParts python message arguments) = before ++ cut :: after
  cutShort : CutShort cut

theorem bind_eq_ok {ε β γ : Type} {x : Except ε β} {f : β → Except ε γ} {c : γ} :
    x >>= f = .ok c ↔ ∃ b, x = .ok b ∧ f b = .ok c := by
  cases x with
  | error e => simp [bind, Except.bind]
  | ok b => simp [bind, Except.bind]

variable {response : LLMResponse}

theorem responseOf_content {data choice : Members} {content : String}
    (h : responseOf python data choice content = .ok response) : response.content = content := by
  unfold responseOf at h
  dsimp only at h
  split at h
  next => cases h
  next =>
    simp only [bind_eq_ok] at h
    obtain ⟨usage, -, promptTokens, -, completionTokens, -, totalTokens, -, h⟩ := h
    cases h
    rfl

theorem generate_text {reply : Value} (h : generate python reply = .ok response) :
    ∃ message, messageOf python reply = .ok message ∧
      assistantMessageText python message = some response.content := by
  simp only [generate, bind_eq_ok, Prod.exists] at h
  obtain ⟨data, choice, hchoice, message, hmessage, h⟩ := h
  refine ⟨message, ?_, ?_⟩
  · rw [messageOf, hchoice]
    exact hmessage
  · cases htext : assistantMessageText python message with
    | none =>
      rw [htext] at h
      cases h
    | some content =>
      rw [htext] at h
      rw [responseOf_content python h]

theorem StopsInJson.cutAt {reply : Value} {before after : List (List Char)} {cut : List Char}
    (h : StopsInJson python reply call.budget before cut after)
    (hreply : replies call.number = .ok reply)
    (hnone : ∀ text, (firstJson (before ++ after)).or (firstClosed (before ++ cut :: after)) =
      some text → ¬Accepts python schema text) :
    CutAt python schema replies call := by
  obtain ⟨response, hresponse, htruncated⟩ := h.truncated
  refine ⟨response, by rw [hreply]; exact hresponse, htruncated, ?_⟩
  intro haccepts
  obtain ⟨message, hmessage, hcontent⟩ := generate_text python hresponse
  obtain ⟨other, arguments, hother, harguments, hcandidates⟩ := h.candidates
  rw [hmessage, Except.ok.injEq] at hother
  subst hother
  have htext := accepted_text python schema harguments hcontent haccepts
  rw [hcandidates, firstJson_cutShort h.cutShort] at htext
  exact hnone _ htext haccepts

/-- A reply that stops in the middle of its JSON text at a budget that is not the last is asked for
again with a larger budget, and what is returned comes from a later reply; unless the first JSON
text of its other fields, or else its first closed text, is accepted. -/
theorem cut_answer_asked_again (settings : BudgetSettings) (attempts : Nat) (schemaName : String)
    (maxTokens : Option Nat) {call : Call}
    (hcall : call ∈
      (generateStructured python schema replies settings attempts schemaName maxTokens).calls)
    (hfinal : call.final = false) {reply : Value} (hreply : replies call.number = .ok reply)
    {before after : List (List Char)} {cut : List Char}
    (h : StopsInJson python reply call.budget before cut after)
    (hnone : ∀ text, (firstJson (before ++ after)).or (firstClosed (before ++ cut :: after)) =
      some text → ¬Accepts python schema text) :
    (∃ larger ∈
        (generateStructured python schema replies settings attempts schemaName maxTokens).calls,
      larger.number = call.number + 1 ∧ call.budget < larger.budget) ∧
    ∀ number value,
      (generateStructured python schema replies settings attempts schemaName maxTokens).result =
        .ok (number, value) → call.number < number := by
  obtain ⟨hends, henlarges⟩ := overAttempts_run python schema replies
    outputBudgetsFor_increase attempts 0
  have hcut := h.cutAt python schema replies hreply hnone
  refine ⟨henlarges call hcall hfinal hcut, ?_⟩
  intro number value hresult
  obtain ⟨-, ⟨response, hresponse, hvalue⟩, hcalls⟩ := hends number value hresult
  rcases Nat.lt_or_eq_of_le (hcalls call hcall) with hlt | heq
  · exact hlt
  · exfalso
    obtain ⟨other, hother, -, hrejected⟩ := hcut
    rw [heq, hresponse, Except.ok.injEq] at hother
    rw [hother] at hvalue
    exact hrejected ⟨value, hvalue⟩

def plainPython : Python where
  str _ := ""
  dumps _ := "\x7b\x7d"
  casefold := Text.lower
  isZero _ := false
  int value :=
    match value with
    | .int n => some n
    | _ => none

def completion (content finishReason : String) : Value :=
  .obj (.cons "choices" (.arr (.cons (.obj (.cons "message"
    (.obj (.cons "content" (.str content) .nil))
    (.cons "finish_reason" (.str finishReason) .nil))) .nil)) .nil)

def payloadSchema : ResponseSchema Value where
  name := "FinalSynthesisLLMResponse"
  validate payload := .ok payload

def synthesisSettings : BudgetSettings := ⟨4096, 16000⟩

def synthesis (summary : String) : Members :=
  .cons "tasks" (.arr .nil) (.cons "notes" (.arr .nil) (.cons "summary" (.str summary) .nil))

def cutSummary : String := "\x7b\"tasks\": [], \"notes\": [], \"summary\": \"They agr"

theorem cutShort_of_loads {rest : List Char} {members : Members}
    (h : text ≠ [] ∧ rest ≠ [] ∧ Text.trim (text ++ rest) = text ++ rest ∧
      Json.loads (text ++ rest) = some (.obj members)) :
    CutShort text := by
  obtain ⟨htext, hrest, htrim, hload⟩ := h
  refine ⟨htext, rest, members, hrest, ?_⟩
  have hrenders := (Json.loads_trim hload).2
  rwa [htrim] at hrenders

theorem stopsInJson_completion {text : String} {budget : Nat} (rest : List Char)
    (members : Members)
    (h : text.toList ≠ [] ∧ rest ≠ [] ∧ Text.trim (text.toList ++ rest) = text.toList ++ rest ∧
      Json.loads (text.toList ++ rest) = some (.obj members))
    (hcandidates : candidatesOf [text] = [text.toList])
    (hresponse : generate plainPython (completion text "length") = .ok response)
    (htruncated : outputTruncated plainPython response budget = true)
    (hparts : messageParts plainPython (.cons "content" (.str text) .nil) [] = [text]) :
    StopsInJson plainPython (completion text "length") budget [] text.toList [] where
  truncated := ⟨response, hresponse, htruncated⟩
  candidates := by
    refine ⟨.cons "content" (.str text) .nil, [], ?_, ?_, ?_⟩
    · rfl
    · rfl
    · rw [hparts, hcandidates]
      rfl
  cutShort := cutShort_of_loads h

def closedResponse (content : String) : LLMResponse := ⟨content, 0, 0, 0, some "length"⟩

/-- The cut summary is closed and returned, though 16000 tokens are left to try. -/
theorem cut_answer_returned :
    let run := generateStructured plainPython payloadSchema
      (fun _ => .ok (completion cutSummary "length")) synthesisSettings 1
      "FinalSynthesisLLMResponse" (some 8192)
    ⟨0, 8192, false⟩ ∈ run.calls ∧
      StopsInJson plainPython (completion cutSummary "length") 8192 [] cutSummary.toList [] ∧
      run.result = .ok (0, .obj (synthesis "They agr")) := by
  have hresponse : generate plainPython (completion cutSummary "length") =
      .ok (closedResponse (cutSummary ++ "\"\x7d")) := by decide +kernel
  refine ⟨by decide +kernel, ?_, by decide +kernel⟩
  exact stopsInJson_completion "eed.\"\x7d".toList (synthesis "They agreed.") (by decide +kernel)
    (by decide +kernel) hresponse (by decide +kernel) (by decide +kernel)

def cutTasks : String := "\x7b\"tasks\": ["

def cutThenWhole (number : Nat) : Except CallError Value :=
  if number = 0 then .ok (completion cutTasks "length")
  else .ok (completion (cutSummary ++ "eed.\"\x7d") "stop")

theorem cut_answer_asked_again_sample :
    let run := generateStructured plainPython payloadSchema cutThenWhole synthesisSettings 1
      "FinalSynthesisLLMResponse" (some 8192)
    (∃ larger ∈ run.calls, larger.number = 1 ∧ 8192 < larger.budget) ∧
      ∀ number value, run.result = .ok (number, value) → 0 < number := by
  have hcall : (⟨0, 8192, false⟩ : Call)
    ∈ (generateStructured plainPython payloadSchema cutThenWhole
      synthesisSettings 1 "FinalSynthesisLLMResponse" (some 8192)).calls := by decide +kernel
  have hresponse : generate plainPython (completion cutTasks "length") =
      .ok (closedResponse (cutTasks ++ "]\x7d")) := by decide +kernel
  have hclosed : (firstJson ([] ++ [])).or (firstClosed ([] ++ cutTasks.toList :: [])) =
      some (cutTasks ++ "]\x7d").toList := by decide +kernel
  have hrejected : parseStructuredContent plainPython payloadSchema (cutTasks ++ "]\x7d").toList =
      .error .incompleteStructuredOutput := by decide +kernel
  refine cut_answer_asked_again plainPython payloadSchema cutThenWhole synthesisSettings 1
    "FinalSynthesisLLMResponse" (some 8192) hcall rfl rfl
    (stopsInJson_completion "], \"notes\": [], \"summary\": \"They agreed.\"\x7d".toList
      (synthesis "They agreed.") (by decide +kernel) (by decide +kernel) hresponse
      (by decide +kernel) (by decide +kernel)) ?_
  rintro text htext ⟨value, hvalue⟩
  rw [hclosed, Option.some.injEq] at htext
  rw [← htext, hrejected] at hvalue
  cases hvalue

end AiBuddy.Llm
