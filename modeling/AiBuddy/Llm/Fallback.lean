import AiBuddy.Misc.Text
import Mathlib.Data.Rat.Floor

/-!
# The fallback routes

`services/llm/fallback.py` and what it takes from `services/conversation/budget.py`. What an attempt
comes to is an argument, for each position of a candidate. The requests that the providers get, the
usage that is recorded and the diagnostics are left out. The settings have their limits by key, and
the product with their ratio is exact.
-/

namespace AiBuddy.Llm

/-- `LLMRouteCandidate`: the name of its provider, and its model. -/
structure LLMRouteCandidate where
  provider : String
  model : String
  deriving DecidableEq

/-- The settings that `budget.py` reads. -/
structure ContextSettings where
  modelContextTokenLimits : String → Option Int
  providerContextTokenLimits : String → Option Int
  finalModelInputTokenLimit : Int
  llmStructuredMaxTokens : Int
  semanticWindowSafeContextRatio : Rat

variable (settings : ContextSettings)

def providerContextLimit (provider model : String) : Int :=
  let modelKey := Text.lower (Text.strip model)
  let providerKey := Text.lower (Text.strip provider)
  let compound := if providerKey ≠ "" ∧ modelKey ≠ "" then providerKey ++ "/" ++ modelKey else ""
  let found := if modelKey = "" then none else settings.modelContextTokenLimits modelKey
  let found := found.or (if compound = "" then none else settings.modelContextTokenLimits compound)
  (found.or (settings.providerContextTokenLimits providerKey)).getD
    settings.finalModelInputTokenLimit

def truncate (value : Rat) : Int := if 0 ≤ value then ⌊value⌋ else ⌈value⌉

def safeInputBudget (provider model : String) : Int :=
  max 1000 (truncate (providerContextLimit settings provider model *
    settings.semanticWindowSafeContextRatio) - settings.llmStructuredMaxTokens - 1500)

def candidateFits (candidate : LLMRouteCandidate) (estimatedTokens : Int) : Bool :=
  estimatedTokens ≤ safeInputBudget settings candidate.provider candidate.model

/-- What `LLMRequest` says of its size, `models.py:15`. -/
structure RequestSize where
  contents : List String
  maxTokens : Option Int

/-- `_estimate_request_tokens(messages, max_tokens)`. -/
def RequestSize.estimate (request : RequestSize) : Int :=
  max 1 ((request.contents.map (·.length)).sum / 4 : Nat) + request.maxTokens.getD 0

/-- What `_should_try_next` sees of an exception. -/
structure RouteError where
  /-- It is an async lifecycle error, or is classified as one. -/
  asyncLifecycle : Bool
  /-- `retryable` and `status_code` of an `LLMProviderError`. -/
  provider : Option (Bool × Option Int)
  deriving DecidableEq

def shouldTryNext (error : RouteError) : Bool :=
  if error.asyncLifecycle then false
  else
    match error.provider with
    | some (retryable, statusCode) =>
      retryable || statusCode ∈ [some 400, some 413, some 422, some 429]
    | none => true

inductive RouteOutcome where
  | success
  | quotaRejected
  | failed (error : RouteError)

/-- The exception of an attempt; `quota_guard.reserve` raises a retryable error with status 429. -/
def RouteOutcome.error? : RouteOutcome → Option RouteError
  | .success => none
  | .quotaRejected => some ⟨false, some (true, some 429)⟩
  | .failed error => some error

/-- What a route raises: the exception of an attempt, or that all have failed. -/
inductive RouteFailure where
  | raised (error : RouteError)
  | allFailed (lastError : Option RouteError)
  deriving DecidableEq

abbrev Routed := List Nat × Except RouteFailure Nat

def Routed.after (i : Nat) (route : Routed) : Routed := (i :: route.1, route.2)

variable (outcome : Nat → RouteOutcome)

def generateFrom (tokens : Int) : Option RouteError → List (LLMRouteCandidate × Nat) → Routed
  | lastError, [] => ([], .error (.allFailed lastError))
  | lastError, (candidate, i) :: rest =>
    if !candidateFits settings candidate tokens then generateFrom tokens lastError rest
    else
      match (outcome i).error? with
      | none => ([i], .ok i)
      | some error =>
        if shouldTryNext error then (generateFrom tokens (some error) rest).after i
        else ([i], .error (.raised error))

def FallbackLLMProvider.generate (candidates : List LLMRouteCandidate) (request : RequestSize) :
    Routed :=
  generateFrom settings outcome request.estimate none candidates.zipIdx

def generateStructuredFrom : Option RouteError → List (LLMRouteCandidate × Nat) → Routed
  | lastError, [] => ([], .error (.allFailed lastError))
  | _, (_, i) :: rest =>
    match (outcome i).error? with
    | none => ([i], .ok i)
    | some error =>
      if shouldTryNext error then (generateStructuredFrom (some error) rest).after i
      else ([i], .error (.raised error))

def FallbackLLMProvider.generateStructured (candidates : List LLMRouteCandidate)
    (request : RequestSize) : Routed :=
  let tokens := request.estimate
  let eligible := candidates.zipIdx.filter fun entry => candidateFits settings entry.1 tokens
  generateStructuredFrom outcome none (if eligible = [] then candidates.zipIdx else eligible)

end AiBuddy.Llm
