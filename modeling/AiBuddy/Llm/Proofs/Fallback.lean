import AiBuddy.Llm.Fallback

/-!
# Where the fallback routes agree

The loop of `generate` is that of `generate_structured` over the candidates that fit. Where none
fits, one route attempts nothing and the other one attempts them all.
-/

namespace AiBuddy.Llm

variable {settings : ContextSettings} {outcome : Nat → RouteOutcome}

def SameRoute (first second : Routed) : Prop :=
  first.1 = second.1 ∧ ∀ i, first.2 = .ok i ↔ second.2 = .ok i

theorem generateFrom_filter (tokens : Int) (lastError : Option RouteError)
    (candidates : List (LLMRouteCandidate × Nat)) :
    generateFrom settings outcome tokens lastError candidates =
      generateStructuredFrom outcome lastError
        (candidates.filter fun entry => candidateFits settings entry.1 tokens) := by
  induction candidates generalizing lastError with
  | nil => rfl
  | cons entry rest ih =>
    obtain ⟨candidate, i⟩ := entry
    rw [generateFrom]
    cases hfits : candidateFits settings candidate tokens with
    | false =>
      rw [List.filter_cons_of_neg (by simp [hfits])]
      exact ih lastError
    | true =>
      simp only [List.filter_cons, hfits, ↓reduceIte, generateStructuredFrom]
      cases (outcome i).error? with
      | none => rfl
      | some error =>
        dsimp only [Bool.not_true]
        rw [ih (some error)]
        rfl

theorem generateStructuredFrom_attempts (lastError : Option RouteError)
    {candidates : List (LLMRouteCandidate × Nat)} (h : candidates ≠ []) :
    (generateStructuredFrom outcome lastError candidates).1 ≠ [] := by
  cases candidates with
  | nil => exact absurd rfl h
  | cons entry rest =>
    rw [generateStructuredFrom]
    cases (outcome entry.2).error? with
    | none => exact List.cons_ne_nil _ _
    | some error =>
      dsimp only
      split
      · exact List.cons_ne_nil _ _
      · exact List.cons_ne_nil _ _

/-- The routes agree exactly where some candidate fits the request. -/
theorem routes_agree_iff (settings : ContextSettings) (outcome : Nat → RouteOutcome)
    (candidates : List LLMRouteCandidate) (request : RequestSize) (hne : candidates ≠ []) :
    SameRoute (FallbackLLMProvider.generate settings outcome candidates request)
        (FallbackLLMProvider.generateStructured settings outcome candidates request) ↔
      ∃ candidate ∈ candidates, candidateFits settings candidate request.estimate = true := by
  have hentry : (∃ candidate ∈ candidates, candidateFits settings candidate request.estimate) ↔
      candidates.zipIdx.filter (fun entry => candidateFits settings entry.1 request.estimate) ≠
        [] := by
    simp [List.filter_eq_nil_iff, List.mem_iff_getElem?]
  unfold FallbackLLMProvider.generate FallbackLLMProvider.generateStructured
  rw [hentry, generateFrom_filter]
  dsimp only
  constructor
  · rintro ⟨hattempts, -⟩ hnone
    rw [hnone, if_pos rfl] at hattempts
    have hsome : candidates.zipIdx ≠ [] := by simpa using hne
    exact generateStructuredFrom_attempts none hsome hattempts.symm
  · intro hsome
    rw [if_neg hsome]
    exact ⟨rfl, fun _ => Iff.rfl⟩

def smallSettings : ContextSettings where
  modelContextTokenLimits _ := none
  providerContextTokenLimits _ := none
  finalModelInputTokenLimit := 8000
  llmStructuredMaxTokens := 2000
  semanticWindowSafeContextRatio := 1

def largeRequest : RequestSize := ⟨["Summarise the week."], some 9000⟩

theorem routes_agree_iff_sample :
    SameRoute
        (FallbackLLMProvider.generate smallSettings (fun _ => .success) [⟨"groq", "m"⟩] ⟨[], none⟩)
        (FallbackLLMProvider.generateStructured smallSettings (fun _ => .success) [⟨"groq", "m"⟩]
          ⟨[], none⟩) ↔
      ∃ candidate ∈ [(⟨"groq", "m"⟩ : LLMRouteCandidate)],
        candidateFits smallSettings candidate (RequestSize.estimate ⟨[], none⟩) = true :=
  routes_agree_iff smallSettings (fun _ => .success) [⟨"groq", "m"⟩] ⟨[], none⟩
    (List.cons_ne_nil _ _)

theorem large_request_attempted_by_one :
    ¬ SameRoute
      (FallbackLLMProvider.generate smallSettings (fun _ => .success) [⟨"groq", "m"⟩] largeRequest)
      (FallbackLLMProvider.generateStructured smallSettings (fun _ => .success) [⟨"groq", "m"⟩]
        largeRequest) := by
  rintro ⟨hattempts, -⟩
  revert hattempts
  decide +kernel

end AiBuddy.Llm
