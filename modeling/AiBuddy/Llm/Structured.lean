import AiBuddy.Llm.Message

/-!
# Structured output

`services/llm/openai_compatible.py` and `services/llm/schema_adapter.py`: an answer is parsed and
validated, and `generate_structured` asks again, with a larger output budget or in another mode,
where that fails. The validation of pydantic is a parameter, and so are the replies.
-/

namespace AiBuddy.Llm

open Json (Value Items Members)

variable (python : Python)

def instanceKeys : List String :=
  ["semanticUnits", "units", "semantic_units", "semanticUnit", "tasks", "notes", "decisions",
    "issues", "supportedUnitVerdict", "unitVerdict", "emptyExtractionVerdict", "extractionVerdict",
    "summary", "narrative", "rejectedCandidates", "publishVerdict", "importantFacts", "topics",
    "openQuestions", "problems", "requirements", "commitments"]

def schemaMarkerKeys : List String :=
  ["$defs", "$schema", "$ref", "$id", "additionalProperties", "definitions"]

/-- `type_name` of `is_schema_echo`. -/
def typeName (members : Members) : String :=
  match get members "type" with
  | .arr items => python.casefold (" ".intercalate (items.toList.map python.text))
  | value => python.casefold (python.text (python.or value (.str "")))

def isSchemaEcho : Value → Bool
  | .obj members =>
    let has (name : String) := (members.get? name).isSome
    if instanceKeys.any has then false
    else if schemaMarkerKeys.any has then true
    else
      match get members "properties", get members "required" with
      | .obj _, .arr _ => true
      | .obj _, _ => typeName python members = "object"
      | _, _ => false
  | _ => false

def wireRequiredCollections (schemaName : String) : List String :=
  if schemaName = "FinalSynthesisLLMResponse" then ["tasks", "notes"]
  else if schemaName = "MeetingCandidateExtractorResponse" then ["candidates"]
  else if schemaName = "MeetingVerifierResponse" then ["items"]
  else []

/-- A response schema: its name, and `model_validate`. A `ValidationError` is kept as whether it
says that the output is incomplete: in its message, or as a missing required collection. -/
structure ResponseSchema (α : Type) where
  name : String
  validate : Value → Except Bool α

variable {α : Type} (schema : ResponseSchema α)

def ResponseSchema.lacks : Value → Bool
  | .obj members =>
    (wireRequiredCollections schema.name).any fun field => get members field = .null
  | _ => false

def ResponseSchema.classify (payload : Value) (incomplete : Bool) : FailureReason :=
  if schema.lacks payload || incomplete then .incompleteStructuredOutput
  else .schemaValidationFailed

/-- The second try of `parse_structured_content`, after a `ValidationError`: with the object in the
text. -/
def parseNested (cleaned : List Char) (payload : Value) (incomplete : Bool) :
    Except FailureReason α :=
  match (extractJsonObject cleaned).filter (· ≠ cleaned) with
  | none => .error (schema.classify payload incomplete)
  | some extracted =>
    match (loadJsonPayload extracted).filter (· ≠ .null) with
    | none => .error (schema.classify payload incomplete)
    | some nested =>
      if isSchemaEcho python nested then .error .schemaEcho
      else if schema.lacks nested then .error .incompleteStructuredOutput
      else
        match schema.validate nested with
        | .ok value => .ok value
        | .error incomplete => .error (schema.classify nested incomplete)

/-- `parse_structured_content(response_schema, content)`; the error is
the outcome of the `StructuredOutputError`. -/
def parseStructuredContent (content : List Char) : Except FailureReason α :=
  let cleaned := sanitizeJsonText content
  match (loadJsonPayload cleaned).filter (· ≠ .null) with
  | none => .error .malformedJson
  | some payload =>
    if isSchemaEcho python payload then .error .schemaEcho
    else if schema.lacks payload then .error .incompleteStructuredOutput
    else
      match schema.validate payload with
      | .ok value => .ok value
      | .error incomplete => parseNested python schema cleaned payload incomplete

structure BudgetSettings where
  /-- `LLM_STRUCTURED_MAX_TOKENS`. -/
  structuredMaxTokens : Nat
  /-- `LLM_SYNTHESIS_OUTPUT_MAX_TOKENS`. -/
  synthesisOutputMaxTokens : Nat

def outputBudgetsFor (settings : BudgetSettings) (schemaName : String) (requested : Option Nat) :
    List Nat :=
  let start := (requested.filter (· ≠ 0)).getD settings.structuredMaxTokens
  if schemaName ≠ "FinalSynthesisLLMResponse" then [max 512 start]
  else
    let ceiling := max 512 settings.synthesisOutputMaxTokens
    let start := max 512 (min start ceiling)
    if ceiling ≤ start then [ceiling] else [start, ceiling]

/-- `_output_truncated(diagnostics, max_tokens)`, on the response that
the diagnostics are of. -/
def outputTruncated (response : LLMResponse) (maxTokens : Nat) : Bool :=
  python.casefold (Text.strip (response.finishReason.getD "")) ∈
      ["length", "max_tokens", "max_completion_tokens"] ||
    (maxTokens ≠ 0 && maxTokens ≤ response.completionTokens)

def recoveryEligible (reason : FailureReason) : Bool :=
  reason ∈ [.structuredSchemaUnsupported, .schemaValidationFailed, .malformedJson, .schemaEcho,
    .incompleteStructuredOutput]

/-- What `generate_structured` can raise: the error of a call, or a `StructuredOutputError`. -/
inductive StructuredError
  | call (error : CallError)
  | structured (outcome : FailureReason)
  deriving DecidableEq

/-- A call of `generate`: its number, its budget, and whether no larger budget is left. -/
structure Call where
  number : Nat
  budget : Nat
  final : Bool
  deriving DecidableEq

/-- The calls that were made, in their order, and how `generate_structured` ended: with an object
and the number of the reply that it was parsed from, or with an exception. -/
structure Run (α : Type) where
  calls : List Call
  result : Except StructuredError (Nat × α)

def Run.after (call : Call) (run : Run α) : Run α := { run with calls := call :: run.calls }

variable (replies : Nat → Except CallError Value)

/-- The loop over the budgets of one attempt, `openai_compatible.py:182`. -/
def overBudgets (lastAttempt : Bool) (next : Nat → Run α) : List Nat → Nat → Run α
  | [], number => next number
  | budget :: budgets, number =>
    let call : Call := { number, budget, final := budgets.isEmpty }
    match (replies number).bind (generate python) with
    | .error error =>
      match error with
      | .provider reason =>
        if lastAttempt || !recoveryEligible reason then ⟨[call], .error (.call error)⟩
        else (next (number + 1)).after call
      | .raised => ⟨[call], .error (.call error)⟩
    | .ok response =>
      match parseStructuredContent python schema response.content.toList with
      | .ok value => ⟨[call], .ok (number, value)⟩
      | .error outcome =>
        let truncated := outputTruncated python response budget
        if truncated && !budgets.isEmpty then
          (overBudgets lastAttempt next budgets (number + 1)).after call
        else if truncated || lastAttempt || !recoveryEligible outcome then
          ⟨[call], .error (.structured outcome)⟩
        else (next (number + 1)).after call

/-- The loop over so many attempts of the plan, `openai_compatible.py:179`. -/
def overAttempts (budgets : List Nat) : Nat → Nat → Run α
  | 0, _ => ⟨[], .error (.call (.provider .httpError))⟩
  | attempts + 1, number =>
    overBudgets python schema replies (attempts = 0) (overAttempts budgets attempts) budgets number

/-- `OpenAICompatibleProvider.generate_structured`, with the number of
the plan's attempts and the name and the output limit of the request. -/
def generateStructured (settings : BudgetSettings) (attempts : Nat) (schemaName : String)
    (maxTokens : Option Nat) : Run α :=
  overAttempts python schema replies (outputBudgetsFor settings schemaName maxTokens) attempts 0

end AiBuddy.Llm
