import AiBuddy.EventPipeline.Schemas

/-!
# Atomic events from an extraction response

`services/conversation/event_pipeline/events.py:291` to `:990`. A transcript map is a function
that gives the empty text where it has no line. Of an event the model keeps what its evidence,
its object and its sequences are made of; `canonicalize_action_object` rewords the object, so it
is a parameter. Upper case is that of the ASCII letters.
-/

namespace AiBuddy.EventPipeline

open Conversation

structure ActionSignalLLMItem where
  isActionable : Bool := false
  role : Option String := none
  actionStrength : Option String := none
  verb : Option String := none
  object : Option String := none
  objectGroundingType : Option String := none
  actor : Option String := none
  deadline : Option String := none

structure AtomicEventLLMItem where
  kind : EventKind := .fact
  meaning : String
  actor : Option String := none
  object : Option String := none
  timeExpression : Option String := none
  evidence : List EvidenceSpan := []
  abstain : Bool := false
  actionSignal : Option ActionSignalLLMItem := none
  fieldEvidence : Option FieldEvidence := none

inductive Grounding where
  | explicit
  | localCoreference
  | inferred
  | unresolved
  deriving DecidableEq

variable (host : Host) (lines : Int → String)

/-- Python `a or b` on texts that may be missing. -/
def orOption (first second : Option String) : Option String :=
  if first.getD "" = "" then second else first

def groundSpan (allowed : List Int) (span : EvidenceSpan) : Option EvidenceSpan :=
  if span.sequenceStart ∉ allowed ∧ span.sequenceEnd ∉ allowed then none
  else
    let texts := ((spanSequences span).filter fun sequence =>
      sequence ∈ allowed ∧ lines sequence ≠ "").map lines
    let combined := Text.strip (" ".intercalate texts)
    let cited := normalizeText span.text
    if combined = "" then none
    else if cited = "" ∨
        (Text.contains (casefoldText host cited) (casefoldText host combined) = false ∧
          Text.contains (casefoldText host combined) (casefoldText host cited) = false) then
      some { span with text := combined }
    else some { span with text := cited }

def groundEvidence (allowed : List Int) (spans : List EvidenceSpan) : List EvidenceSpan :=
  (spans.filterMap (groundSpan host lines allowed)).eraseDups

def lineSpan (sequence : Int) : EvidenceSpan :=
  ⟨sequence, sequence, Text.strip (lines sequence)⟩

def unspecific : List String := genericActionObjects ++ actionPronouns ++ deicticOrTime

def evidenceFromMeaning (meaning : String) (signal : Option ActionSignalLLMItem)
    (topic : LocalTopic) : List EvidenceSpan :=
  let fromSignal := match signal with
    | none => []
    | some signal =>
      tokenSet host (signal.object.getD "") ++ tokenSet host (signal.verb.getD "")
  let needles := ((tokenSet host meaning ++ fromSignal).eraseDups).filter (· ∉ unspecific)
  let overlap := fun sequence =>
    ((tokenSet host (lines sequence)).filter (· ∈ needles)).length
  let scored := topic.sequenceIds.filter fun sequence =>
    lines sequence ≠ "" ∧ 0 < overlap sequence
  let ranked := scored.insertionSort fun a b =>
    overlap b < overlap a ∨ overlap a = overlap b ∧ a ≤ b
  (ranked.take 3).map (lineSpan lines)

def spansForTokens (text : String) (allowed : List Int) : List EvidenceSpan :=
  let needles := (contentTokens host text).map host.casefold
  if needles = [] then []
  else
    (allowed.filter fun sequence =>
      let blob := casefoldText host (lines sequence)
      blob ≠ "" ∧ (Text.contains (casefoldText host text) blob ∨
        needles.all fun token => token.length ≤ 1 || Text.contains token blob)).map
      (lineSpan lines)

def mergeSpans (existing extra : List EvidenceSpan) : List EvidenceSpan :=
  existing ++ (extra.eraseDups.filter (· ∉ existing))

def isUnresolvedObjectText (text : String) : Bool :=
  let value := normalizeText text
  value = "" || casefoldText host value ∈ genericActionObjects ++ actionPronouns ||
    (contentTokens host value).all fun token => host.casefold token ∈ unspecific

def isPronounOrDeictic (text : String) : Bool := casefoldText host text ∈ actionPronouns

def tokenSupported (token blob : String) (blobTokens : List String) : Bool :=
  let folded := host.casefold token
  Text.contains folded blob || folded ∈ blobTokens ||
    (3 ≤ folded.length && blobTokens.any fun item => 3 ≤ item.length &&
      (item.toList.isPrefixOf folded.toList || folded.toList.isPrefixOf item.toList))

def objectGroundingInScope (text : String) (fieldSpans evidence : List EvidenceSpan)
    (topic : LocalTopic) : Option Grounding × List EvidenceSpan :=
  let blob := casefoldText host (" ".intercalate ((fieldSpans ++ evidence).map (·.text)) ++ " " ++
    " ".intercalate (topic.sequenceIds.map lines))
  let blobTokens := tokenSet host blob
  let folded := casefoldText host text
  let spans := fun words =>
    if fieldSpans ≠ [] then fieldSpans else spansForTokens host lines words topic.sequenceIds
  if folded ≠ "" ∧ Text.contains folded blob then (some .explicit, spans text)
  else
    let distinctive := (contentTokens host text).filter fun token =>
      host.casefold token ∉ unspecific
    let inBlob := distinctive.filter fun token => tokenSupported host token blob blobTokens
    let extra := distinctive.filter (· ∉ inBlob)
    if distinctive = [] then (none, [])
    else if extra ≠ [] ∧ inBlob ≠ [] then (some .inferred, [])
    else if inBlob ≠ [] ∧ extra = [] then (some .explicit, spans (" ".intercalate inBlob))
    else (none, [])

def mostlyReferential (text : String) : Bool :=
  let tokens := (contentTokens host text).map host.casefold
  tokens ≠ [] && (tokens.filter (· ∉ deicticOrTime ++ actionPronouns)).length ≤ 1

def blockHasObjectTokens (text : String) : Bool :=
  2 ≤ (((contentTokens host text).map host.casefold).filter
    (· ∉ deicticOrTime ++ actionPronouns)).length

def localAntecedentSequences (blocks : List MicroBlock) (events : List Int) : List Int :=
  let others := fun block : MicroBlock => block.sequenceIds.filter (· ∉ events)
  match blocks.dropWhile fun block => block.sequenceIds.all (· ∉ events) with
  | [] => []
  | current :: _ =>
    let earlier := (blocks.takeWhile fun block => block.sequenceIds.all (· ∉ events)).reverse
    let prior := earlier.find? fun block =>
      !mostlyReferential host block.text && blockHasObjectTokens host block.text
    (others current ++ (match prior with
      | some block => others block
      | none => [])).eraseDups

def antecedentPhrase (line : String) : Option String :=
  if mostlyReferential host line ∨ contentTokens host line = [] then none
  else
    let specific := fun words : List String =>
      words.filter fun word => host.casefold word ∉ unspecific
    let entities := specific (extractEntities host line)
    let tokens := specific (contentTokens host line)
    if entities ≠ [] then some (" ".intercalate entities)
    else if 1 ≤ tokens.length ∧ tokens.length ≤ 4 then some (" ".intercalate tokens)
    else none

def antecedents : List String → List Int → List (String × Int)
  | _, [] => []
  | seen, sequence :: rest =>
    match antecedentPhrase host (lines sequence) with
    | none => antecedents seen rest
    | some phrase =>
      if host.casefold phrase ∈ seen then antecedents seen rest
      else (phrase, sequence) :: antecedents (host.casefold phrase :: seen) rest

def resolvePronounLocally (blocks : List MicroBlock) (events : List Int) :
    Option (String × EvidenceSpan) :=
  match antecedents host lines [] (localAntecedentSequences host blocks events) with
  | [(phrase, sequence)] => some (phrase, lineSpan lines sequence)
  | _ => none

structure ObjectGrounding where
  object : Option String := none
  spans : List EvidenceSpan := []
  status : Option String := none
  grounding : Option Grounding := none

def ObjectGrounding.abstain (actionable : Bool) (grounding : Option Grounding) :
    ObjectGrounding where
  status := if actionable then some abstainUnresolvedObject else none
  grounding := grounding

def ObjectGrounding.resolved (found : String × EvidenceSpan) : ObjectGrounding where
  object := some found.1
  spans := [found.2]
  grounding := some .localCoreference

def upper (text : String) : String := .ofList (text.toList.map Char.toUpper)

/-- `str(value).strip().upper().replace(" ", "_")`. -/
def label (value : String) : String := Text.replace ' ' '_' (upper (Text.strip value))

def coerceGrounding (value : Option String) : Option Grounding :=
  match label (value.getD "") with
  | "EXPLICIT" => some .explicit
  | "LOCAL_COREFERENCE" => some .localCoreference
  | "INFERRED" => some .inferred
  | "UNRESOLVED" => some .unresolved
  | _ => none

def groundActionObject (value : Option String) (fieldSpans evidence : List EvidenceSpan)
    (topic : LocalTopic) (blocks : List MicroBlock) (events : List Int) (actionable : Bool)
    (claimed : Option String) : ObjectGrounding :=
  let text := normalizeText (value.getD "")
  if text ≠ "" ∧ isUnresolvedObjectText host text = false then
    match objectGroundingInScope host lines text fieldSpans evidence topic with
    | (some .explicit, spans) =>
      { object := some text, spans := spans, grounding := some .explicit }
    | (some .inferred, _) => .abstain actionable (some .inferred)
    | _ =>
      if isPronounOrDeictic host text then
        match resolvePronounLocally host lines blocks events with
        | some found => .resolved found
        | none => .abstain actionable (some .unresolved)
      else .abstain actionable (some .unresolved)
  else
    match resolvePronounLocally host lines blocks events with
    | some found => .resolved found
    | none =>
      if actionable then .abstain true (some .unresolved)
      else if coerceGrounding claimed = some .inferred then .abstain false (some .inferred)
      else .abstain false none

def actionRoles : List String := ["REQUEST", "COMMITMENT", "ASSIGNMENT", "INSTRUCTION", "FOLLOW_UP"]

def coerceRole (value : Option String) : Option String :=
  let key := label (value.getD "")
  if key ∈ actionRoles then some key else none

def coerceStrength (value : Option String) (isActionable : Bool) (role : Option String)
    (kind : EventKind) : String :=
  let key := upper (Text.strip (value.getD ""))
  if key ∈ ["NONE", "POSSIBLE", "EXPLICIT"] then key
  else if isActionable || role.any (· ∈ actionRoles) || kind.isAction then "EXPLICIT"
  else "NONE"

def requestedExplicitAction (item : AtomicEventLLMItem) : Bool :=
  match item.actionSignal with
  | none => false
  | some signal =>
    signal.isActionable && coerceStrength signal.actionStrength signal.isActionable
      (coerceRole signal.role) item.kind = "EXPLICIT"

def supportBlob (fieldSpans evidence : List EvidenceSpan) (allowed : List Int) : String :=
  casefoldText host (" ".intercalate ((fieldSpans ++ evidence).map (·.text) ++ allowed.map lines))

def groundField (value : Option String) (fieldSpans evidence : List EvidenceSpan)
    (allowed : List Int) : Option String :=
  let text := normalizeText (value.getD "")
  let blob := supportBlob host lines fieldSpans evidence allowed
  let tokens := (contentTokens host text).filter fun token => 2 < token.length
  if text = "" then none
  else if Text.contains (casefoldText host text) blob then some text
  else if tokens ≠ [] ∧ tokens.all fun token => Text.contains (host.casefold token) blob then
    some text
  else none

def materializeFieldEvidence (raw : Option FieldEvidence) (allowed : List Int) : FieldEvidence :=
  match raw with
  | none => {}
  | some raw =>
    { actionVerb := groundEvidence host lines allowed raw.actionVerb
      actionObject := groundEvidence host lines allowed raw.actionObject
      actor := groundEvidence host lines allowed raw.actor
      deadline := groundEvidence host lines allowed raw.deadline }

/-- The spans of the fields in the order in which they stand in for the evidence,
`:309` to `:314`. -/
def FieldEvidence.all (field : FieldEvidence) : List EvidenceSpan :=
  field.actionVerb ++ field.actionObject ++ field.actor ++ field.deadline

/-- The evidence of an item, `:307` to `:317`. -/
def itemEvidence (topic : LocalTopic) (item : AtomicEventLLMItem) : List EvidenceSpan :=
  let own := groundEvidence host lines topic.sequenceIds item.evidence
  let field := match item.fieldEvidence with
    | some field => groundEvidence host lines topic.sequenceIds field.all
    | none => []
  if own ≠ [] then own
  else if field ≠ [] then field
  else evidenceFromMeaning host lines item.meaning item.actionSignal topic

/-- The object of an item, `:355` to `:366`. -/
def itemObject (topic : LocalTopic) (blocks : List MicroBlock) (item : AtomicEventLLMItem) :
    ObjectGrounding :=
  let evidence := itemEvidence host lines topic item
  groundActionObject host lines (orOption (item.actionSignal.bind (·.object)) item.object)
    (materializeFieldEvidence host lines item.fieldEvidence topic.sequenceIds).actionObject
    evidence topic blocks (evidenceSequenceIds evidence) (requestedExplicitAction item)
    (item.actionSignal.bind (·.objectGroundingType))

/-- The sequence ids of an item, `:320` and `:367` to `:373`. -/
def itemSequences (topic : LocalTopic) (blocks : List MicroBlock) (item : AtomicEventLLMItem) :
    List Int :=
  (evidenceSequenceIds (itemEvidence host lines topic item) ++
    (itemObject host lines topic blocks item).spans.flatMap spanSequences).eraseDups

/-- `_block_index(blocks)[sequence]`: the last block that has the sequence. -/
def blockAt (blocks : List MicroBlock) (sequence : Int) : Option MicroBlock :=
  blocks.reverse.find? fun block => sequence ∈ block.sequenceIds

def showSequences (sequences : List Int) : String :=
  "[" ++ ", ".intercalate (sequences.map Int.repr) ++ "]"

/-- The event of an item that is not passed over, `:304` to `:436`. -/
def materializeEvent (canonicalize : String → String → Option String) (topic : LocalTopic)
    (blocks : List MicroBlock) (conversationId : String) (item : AtomicEventLLMItem) :
    AtomicEvent :=
  let evidence := itemEvidence host lines topic item
  let fields := materializeFieldEvidence host lines item.fieldEvidence topic.sequenceIds
  let object := itemObject host lines topic blocks item
  let merged := mergeSpans evidence object.spans
  let sequences := itemSequences host lines topic blocks item
  let blob := " ".intercalate (merged.map (·.text)) ++ " " ++
    " ".intercalate (sequences.map lines)
  { eventId := stableId host "E" [orText conversationId topic.topicId, item.kind.text,
      item.meaning, showSequences sequences]
    topicId := topic.topicId
    kind := item.kind
    meaning := normalizeText item.meaning
    actor := groundField host lines (orOption (item.actionSignal.bind (·.actor)) item.actor)
      fields.actor evidence topic.sequenceIds
    object := object.object.map fun text => (canonicalize text blob).getD text
    timeExpression := groundField host lines
      (orOption (item.actionSignal.bind (·.deadline)) item.timeExpression)
      fields.deadline evidence topic.sequenceIds
    evidence := merged
    microBlockIds := (sequences.filterMap fun sequence =>
      (blockAt blocks sequence).map MicroBlock.microBlockId).eraseDups
    sourceIds := ((evidenceSequenceIds evidence).flatMap fun sequence =>
      match blockAt blocks sequence with
      | none => []
      | some block => (block.sourceIds.zip block.sequenceIds).filterMap fun (source, seq) =>
        if seq = sequence then some source else none).eraseDups
    sequenceIds := sequences
    conversationId := conversationId
    fieldEvidence := some { fields with
      actionObject := mergeSpans fields.actionObject object.spans } }

/-- An item that yields an event, `:304` to `:319`. -/
def yieldsEvent (topic : LocalTopic) (item : AtomicEventLLMItem) : Bool :=
  !item.abstain && normalizeText item.meaning ≠ "" && itemEvidence host lines topic item ≠ []

def materializeEvents (canonicalize : String → String → Option String)
    (response : List AtomicEventLLMItem) (topic : LocalTopic) (blocks : List MicroBlock)
    (conversationId : String) : List AtomicEvent :=
  (response.filter (yieldsEvent host lines topic)).map
    (materializeEvent host lines canonicalize topic blocks conversationId)

end AiBuddy.EventPipeline
