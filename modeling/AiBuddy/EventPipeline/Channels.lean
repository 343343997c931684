import AiBuddy.EventPipeline.Events

/-!
# The action and the memory channel

`services/conversation/event_pipeline/channels.py`. The channel name that an event carries is
left out: only the count of other events of a ledger reads it.
-/

namespace AiBuddy.EventPipeline

open Conversation

variable (host : Host)

def genericActionVerbs : List String :=
  ["complete", "pending", "fix", "handle", "check", "do", "resolve", "track", "update", "follow",
    "review", "look", "see", "karo", "karna", "kardo"]

/-- `EventKind.text` of the kinds in `NON_PUBLISHABLE_KINDS`, `schemas.py:136`. -/
def EventKind.isNonPublishable : EventKind → Bool
  | .noise => true
  | _ => false

def actionStrength : Option ActionSignal → String
  | none => "NONE"
  | some signal =>
    let raw := upper (Text.strip (signal.actionStrength.getD ""))
    if raw ∈ ["NONE", "POSSIBLE", "EXPLICIT"] then raw
    else if signal.isActionable then "EXPLICIT"
    else "NONE"

def eventIsActionable (event : AtomicEvent) : Bool :=
  match event.actionSignal with
  | some signal => signal.isActionable && actionStrength (some signal) = "EXPLICIT"
  | none => event.kind.isAction

/-- `event.actionSignal.object`, where there is a signal with an object. -/
def AtomicEvent.signalObject (event : AtomicEvent) : String :=
  match event.actionSignal with
  | some signal => signal.object.getD ""
  | none => ""

def AtomicEvent.abstains (event : AtomicEvent) : Bool :=
  match event.actionSignal with
  | some signal => signal.artifactStatus = some abstainUnresolvedObject
  | none => false

def objectGroundingType (event : AtomicEvent) : Option String :=
  let stated := match event.actionSignal with
    | some signal => signal.objectGroundingType.getD ""
    | none => ""
  if stated ≠ "" then some (upper (Text.strip stated))
  else if event.abstains then some "UNRESOLVED"
  else if event.objectText ≠ "" ∨ event.signalObject ≠ "" then some "EXPLICIT"
  else none

/-- `object_grounding_type(event) in {"INFERRED", "UNRESOLVED"}`. -/
def looselyGrounded (event : AtomicEvent) : Bool :=
  objectGroundingType event ∈ [some "INFERRED", some "UNRESOLVED"]

def eventIsTaskEligible (event : AtomicEvent) : Bool :=
  if event.kind = .proposal ∧ actionStrength event.actionSignal ≠ "EXPLICIT" then false
  else eventIsActionable event && !looselyGrounded event

/-- `action_object_text(event)`. A missing text is the empty one. -/
def actionObjectText (event : AtomicEvent) : String :=
  if event.objectText ≠ "" then normalizeText event.objectText
  else if event.signalObject ≠ "" then normalizeText event.signalObject
  else ""

def distinctiveTokens (text : String) : List String :=
  ((contentTokens host text).map host.casefold).filter fun token =>
    token ∉ genericActionObjects ++ deicticOrTime ++ genericActionVerbs ++
      ["the", "a", "an", "please"]

def isStructurallyGeneric (text : String) : Bool := (distinctiveTokens host text).isEmpty

def actionObjectGrounded (event : AtomicEvent) : Bool :=
  let obj := actionObjectText event
  let generic := casefoldText host obj ∈ genericActionObjects
  let blob := " ".intercalate (event.evidence.map (·.text))
  if looselyGrounded event || event.abstains then false
  else if "missing_object" ∈ event.uncertainty ∧ (obj = "" ∨ generic) then false
  else if obj ≠ "" ∧ ¬ generic ∧ isStructurallyGeneric host obj = false then true
  else if distinctiveTokens host (event.meaning ++ " " ++ blob ++ " " ++ obj) = [] then false
  else if isStructurallyGeneric host event.meaning ∧ obj = "" then false
  else !event.entities.isEmpty || !event.evidence.isEmpty

def unresolvedActionObject (event : AtomicEvent) : Bool :=
  event.abstains || !actionObjectGrounded host event || "missing_object" ∈ event.uncertainty

def ActionDisposition.text : ActionDisposition → String
  | .publishedTask => "PUBLISHED_TASK"
  | .duplicate => "DUPLICATE"
  | .superseded => "SUPERSEDED"
  | .unsupported => "UNSUPPORTED"
  | .unresolvedObject => "UNRESOLVED_OBJECT"
  | .ambiguous => "AMBIGUOUS"
  | .intentionallyNonpublishable => "INTENTIONALLY_NONPUBLISHABLE"
  | .validationRejected => "VALIDATION_REJECTED"

/-- The dispositions that a weaker one does not replace, `:199`. -/
def EventDisposition.isSettled : EventDisposition → Bool
  | .task | .note | .duplicate | .superseded | .rejected => true
  | .intentionallyNonPublishable => false

def setActionDisposition (event : AtomicEvent) (disposition : ActionDisposition)
    (reason : String) : AtomicEvent :=
  let event := { event with
    actionDisposition := some disposition
    actionDispositionReason := orText reason disposition.text }
  match disposition with
  | .publishedTask => { event with disposition := some .task }
  | .duplicate => { event with disposition := some .duplicate }
  | .superseded => { event with disposition := some .superseded }
  | .validationRejected =>
    { event with
      disposition := some .rejected
      dispositionReason := orText reason "validation_rejected" }
  | .intentionallyNonpublishable | .unsupported | .unresolvedObject | .ambiguous =>
    if event.disposition.any EventDisposition.isSettled then event
    else
      { event with
        disposition := some .intentionallyNonPublishable
        dispositionReason := orText reason (orText event.dispositionReason disposition.text) }

def actionSynthesisAbstainDisposition (event : AtomicEvent) : ActionDisposition × String :=
  if event.kind = .noise then (.intentionallyNonpublishable, "noise")
  else if unresolvedActionObject host event || looselyGrounded event then
    (.unresolvedObject, "unresolved_object")
  else if "AMBIGUOUS" ∈ event.uncertainty then (.ambiguous, "ambiguous_action")
  else if eventIsTaskEligible event then (.unsupported, "generic_or_ungrounded_action")
  else (.intentionallyNonpublishable, "not_task_eligible")

@[simp] theorem setActionDisposition_actionDisposition (event : AtomicEvent)
    (disposition : ActionDisposition) (reason : String) :
    (setActionDisposition event disposition reason).actionDisposition = some disposition := by
  cases disposition <;> simp only [setActionDisposition] <;> split <;> rfl

theorem setActionDisposition_frame (event : AtomicEvent) (disposition : ActionDisposition)
    (reason : String) :
    ∃ other why whyAction, setActionDisposition event disposition reason =
      { event with
        actionDisposition := some disposition
        actionDispositionReason := whyAction
        disposition := other
        dispositionReason := why } := by
  unfold setActionDisposition
  cases disposition
  case publishedTask | duplicate | superseded | validationRejected => exact ⟨_, _, _, rfl⟩
  all_goals
    dsimp only
    split
    · exact ⟨_, _, _, rfl⟩
    · exact ⟨_, _, _, rfl⟩

end AiBuddy.EventPipeline
