import Mathlib.Data.List.Dedup
import Mathlib.Data.List.Sort
import AiBuddy.Misc.Text

/-!
# Meeting artifacts

The documents of `services/conversation/models.py` that the artifact ledger works on,
what a window's extraction builds from them (`artifacts.py:62`, `:297` to `:620`), and the
task that an artifact is published as (`artifacts.py:187`, `:525`). Conversation, user and
space are those of one conversation throughout, and times are left out.
-/

namespace AiBuddy.Conversation

structure EvidenceSpan where
  sequenceStart : Int
  sequenceEnd : Int
  text : String
deriving DecidableEq

inductive Operation where
  | create
  | update
  | complete
  | cancel
  | noAction
  | needsConfirmation
deriving DecidableEq

inductive ArtifactType where
  | task
  | note
  | decision
  | commitment
  | deadline
  | followUp
  | question
  | answer
  | idea
  | risk
  | blocker
  | requirement
  | fact
  | preference
  | reference
deriving DecidableEq

def ArtifactType.value : ArtifactType → String
  | .task => "task"
  | .note => "note"
  | .decision => "decision"
  | .commitment => "commitment"
  | .deadline => "deadline"
  | .followUp => "follow_up"
  | .question => "question"
  | .answer => "answer"
  | .idea => "idea"
  | .risk => "risk"
  | .blocker => "blocker"
  | .requirement => "requirement"
  | .fact => "fact"
  | .preference => "preference"
  | .reference => "reference"

inductive ArtifactLifecycleStatus where
  | provisional
  | proposed
  | active
  | confirmed
  | modified
  | assigned
  | blocked
  | superseded
  | completed
  | cancelled
  | rejected
  | merged
  | unresolved
deriving DecidableEq

inductive ArtifactResolutionKind where
  | new
  | update
  | duplicate
  | related
  | contradiction
  | completion
deriving DecidableEq

inductive ReconcileAction where
  | createNew
  | updateExisting
  | completeExisting
  | cancelExisting
  | supersedeExisting
  | relatedButDistinct
deriving DecidableEq

inductive DueDateStatus where
  | resolved
  | ambiguous
  | none
deriving DecidableEq

/-- `ArtifactReconcileDecision`. A blank target is stored as none. -/
structure ArtifactReconcileDecision where
  incomingIndex : Nat
  action : ReconcileAction := .createNew
  targetArtifactId : Option String := none
  evidence : List EvidenceSpan := []

structure ArtifactHistoryEntry where
  sourceWindowId : Option String := none
  resolution : ArtifactResolutionKind := .update
  change : String := ""
  previousContent : Option String := none
  evidence : List EvidenceSpan := []
  reconcileAction : Option ReconcileAction := none

/-- `MeetingArtifactDocument`. An id is the text that `str` gives. -/
structure MeetingArtifactDocument where
  id : String
  identityKey : String
  semanticHint : Option String := none
  artifactType : ArtifactType
  title : String
  content : String := ""
  ownerText : Option String := none
  ownerUserId : Option String := none
  dueDateText : Option String := none
  dueDateResolved : Option String := none
  dueDateStatus : DueDateStatus := .none
  topic : Option String := none
  parentArtifactId : Option String := none
  relatedArtifactIds : List String := []
  confidence : Rat := 0.5
  status : ArtifactLifecycleStatus := .provisional
  resolution : ArtifactResolutionKind := .new
  sourceWindowId : Option String := none
  sourceWindowIds : List String := []
  sourceChunkIds : List Int := []
  sourceStartIndex : Option Int := none
  sourceEndIndex : Option Int := none
  evidence : List EvidenceSpan := []
  supersededBy : Option String := none
  supersedes : Option String := none
  reason : Option String := none
  history : List ArtifactHistoryEntry := []
  fingerprint : Option String := none
  needsConfirmation : Bool := false
  operation : Option Operation := none
  existingTaskId : Option String := none

/-- `ExtractedTask`. The values of `changes` that the code reads are texts. -/
structure ExtractedTask where
  title : String
  body : String := ""
  operation : Operation
  existingTaskId : Option String := none
  ownerText : Option String := none
  ownerUserId : Option String := none
  dueDateText : Option String := none
  dueDateResolved : Option String := none
  dueDateStatus : DueDateStatus := .none
  confidence : Rat
  needsConfirmation : Bool := false
  sourceConversationId : String
  fingerprint : Option String := none
  changes : List (String × Option String) := []
  evidence : List EvidenceSpan
  artifactId : Option String := none
  sourceWindowId : Option String := none
  origin : String := "unknown"

/-- `ExtractedNote`; of `debug` only the semantic key is read. -/
structure ExtractedNote where
  title : String
  body : String
  confidence : Rat
  fingerprint : Option String := none
  evidence : List EvidenceSpan
  semanticArtifactKey : Option String := none

/-- `ExtractedDecision.status`. -/
inductive DecisionStatus where
  | confirmedDecision
  | proposal
  | idea
  | unresolvedDiscussion
deriving DecidableEq

structure ExtractedDecision where
  title : String
  status : DecisionStatus
  confidence : Rat
  evidence : List EvidenceSpan

/-- `ExtractedIssue.kind`. -/
inductive IssueKind where
  | blocker
  | risk
  | openQuestion
  | missingInformation
deriving DecidableEq

structure ExtractedIssue where
  title : String
  kind : IssueKind
  confidence : Rat
  evidence : List EvidenceSpan

/-- `SemanticUnit`; of `quality` only whether it is grounded is read. -/
structure SemanticUnit where
  semanticKey : String := ""
  kind : String := "fact"
  meaning : String
  state : String := "unresolved"
  ownerText : Option String := none
  dueDateText : Option String := none
  evidence : List EvidenceSpan := []
  grounded : Bool := false

/-- `WindowExtractionResult`, as far as artifacts are built from it. -/
structure WindowExtractionResult where
  topics : List String := []
  isCheckpoint : Bool := false
  semanticUnits : List SemanticUnit := []
  tasks : List ExtractedTask := []
  notes : List ExtractedNote := []
  decisions : List ExtractedDecision := []
  issues : List ExtractedIssue := []

/-- The window an extraction was made from, `models.py:431`. -/
structure ExtractedWindow where
  id : String
  windowIndex : Nat
  sequenceStart : Nat
  sequenceEnd : Nat
  text : String

def orElse (left right : String) : String := if left = "" then right else left

def orElse? (left right : Option String) : Option String :=
  if left.getD "" = "" then right else left

def sourceChunkIds (evidence : List EvidenceSpan) : List Int :=
  ((evidence.flatMap (fun span => [span.sequenceStart, span.sequenceEnd])).dedup).insertionSort
    (· ≤ ·)

def windowEvidence (window : ExtractedWindow) : EvidenceSpan where
  sequenceStart := window.sequenceStart
  sequenceEnd := window.sequenceEnd
  text := orElse (Text.take 400 (" ".intercalate (Text.fields window.text)))
    ("window " ++ Nat.repr window.windowIndex)

def statusForOperation : Option Operation → ArtifactLifecycleStatus
  | some .complete => .completed
  | some .cancel => .cancelled
  | some .update => .modified
  | _ => .proposed

def statusFromLabel (label : String) : ArtifactLifecycleStatus :=
  match Text.lower (Text.strip (orElse label "unresolved")) with
  | "provisional" => .provisional
  | "proposed" => .proposed
  | "active" => .active
  | "confirmed" => .confirmed
  | "modified" => .modified
  | "assigned" => .assigned
  | "blocked" => .blocked
  | "superseded" => .superseded
  | "completed" => .completed
  | "cancelled" => .cancelled
  | "rejected" => .rejected
  | "merged" => .merged
  | _ => .unresolved

def artifactTypeForUnit (kind : String) : ArtifactType :=
  match Text.lower (Text.strip kind) with
  | "commitment" => .commitment
  | "action_candidate" => .task
  | "note_candidate" => .note
  | "decision" => .decision
  | "fact" => .fact
  | "assignment" => .task
  | "deadline" => .deadline
  | "follow_up" => .followUp
  | "question" => .question
  | "thread" => .question
  | "dependency" => .requirement
  | "blocker" => .blocker
  | "change" => .fact
  | "completion" => .task
  | "cancellation" => .task
  | "assumption" => .fact
  | "narrative" => .note
  | _ => .fact

section Building

/- `identity` is the hash of `artifact_identity_key` for the conversation; `topic` is the
extraction's first topic. -/
variable (identity : String → String) (topic : Option String) (window : ExtractedWindow)

/-- `_base_artifact(...)`, for a new id and non-empty evidence. The
arguments that callers leave out have the source's defaults. -/
def baseArtifact (id : String) (artifactType : ArtifactType) (title content : String)
    (evidence : List EvidenceSpan) (confidence : Rat)
    (status : ArtifactLifecycleStatus := .provisional) (operation : Option Operation := none)
    (fingerprint semanticKey ownerText dueDateText reason : Option String := none) :
    MeetingArtifactDocument where
  id := id
  identityKey := identity id
  semanticHint :=
    let hint := Text.strip (semanticKey.getD "")
    if hint = "" then none else some hint
  artifactType := artifactType
  title := Text.strip title
  content := Text.strip content
  ownerText := ownerText
  dueDateText := dueDateText
  topic := topic
  confidence := confidence
  status := status
  resolution := .new
  sourceWindowId := some window.id
  sourceWindowIds := [window.id]
  sourceChunkIds := sourceChunkIds evidence
  sourceStartIndex :=
    some (((evidence.map EvidenceSpan.sequenceStart).min?).getD window.sequenceStart)
  sourceEndIndex := some (((evidence.map EvidenceSpan.sequenceEnd).max?).getD window.sequenceEnd)
  evidence := evidence
  fingerprint := orElse? fingerprint (some (identity id))
  operation := operation
  reason := reason

/-- Python `list(evidence) or [fallback_evidence]`. -/
def evidenceOr (evidence : List EvidenceSpan) : List EvidenceSpan :=
  if evidence = [] then [windowEvidence window] else evidence

def taskArtifact (task : ExtractedTask) (id : String) : MeetingArtifactDocument :=
  { baseArtifact identity topic window id .task task.title (orElse task.body task.title)
      (evidenceOr window task.evidence) task.confidence (statusForOperation (some task.operation))
      (some task.operation) task.fingerprint
      ((task.changes.lookup "semanticArtifactKey").join) task.ownerText task.dueDateText
      (some task.origin) with
    ownerUserId := task.ownerUserId
    dueDateResolved := task.dueDateResolved
    dueDateStatus := task.dueDateStatus
    needsConfirmation := task.needsConfirmation
    existingTaskId := task.existingTaskId }

def noteArtifact (note : ExtractedNote) (id : String) : MeetingArtifactDocument :=
  baseArtifact identity topic window id .note note.title (orElse note.body note.title)
    (evidenceOr window note.evidence) note.confidence .provisional none note.fingerprint
    note.semanticArtifactKey

def decisionArtifact (decision : ExtractedDecision) (id : String) : MeetingArtifactDocument :=
  baseArtifact identity topic window id
    (if decision.status = .idea then .idea else .decision) decision.title decision.title
    (evidenceOr window decision.evidence) decision.confidence
    (if decision.status = .confirmedDecision then .confirmed else .provisional)

def issueArtifact (issue : ExtractedIssue) (id : String) : MeetingArtifactDocument :=
  baseArtifact identity topic window id
    (if issue.kind = .blocker then .blocker else if issue.kind = .risk then .risk else .question)
    issue.title issue.title (evidenceOr window issue.evidence) issue.confidence

def unitTitle (unit : SemanticUnit) : String :=
  orElse (Text.take 180 (" ".intercalate (Text.fields unit.meaning))) unit.kind

/-- One unit of `_artifacts_from_semantic_units`. -/
def unitArtifact (unit : SemanticUnit) (id : String) : MeetingArtifactDocument :=
  baseArtifact identity topic window id (artifactTypeForUnit unit.kind) (unitTitle unit)
    (Text.strip unit.meaning) (evidenceOr window unit.evidence)
    (if unit.grounded then 0.72 else 0.6) (statusFromLabel unit.state) none none
    (some unit.semanticKey) unit.ownerText unit.dueDateText (some unit.kind)

end Building

def dedupeNewArtifacts (artifacts : List MeetingArtifactDocument)
    (seen : List String := []) : List MeetingArtifactDocument :=
  match artifacts with
  | [] => []
  | artifact :: rest =>
    if artifact.identityKey ∈ seen then dedupeNewArtifacts rest seen
    else artifact :: dedupeNewArtifacts rest (artifact.identityKey :: seen)

/-- What an artifact is built from, in the order in which `artifacts_from_window` goes through
an extraction. -/
inductive Source where
  | unit (unit : SemanticUnit)
  | task (task : ExtractedTask)
  | note (note : ExtractedNote)
  | decision (decision : ExtractedDecision)
  | issue (issue : ExtractedIssue)

def Source.artifact (identity : String → String) (topic : Option String)
    (window : ExtractedWindow) : Source → String → MeetingArtifactDocument
  | .unit source => unitArtifact identity topic window source
  | .task source => taskArtifact identity topic window source
  | .note source => noteArtifact identity topic window source
  | .decision source => decisionArtifact identity topic window source
  | .issue source => issueArtifact identity topic window source

/-- What `artifacts_from_window` builds artifacts from. `publish` is `score_and_filter_result`. -/
def extractionSources (publish : WindowExtractionResult → String → WindowExtractionResult)
    (window : ExtractedWindow) (extraction : WindowExtractionResult) : List Source :=
  let publishable :=
    if !extraction.isCheckpoint && extraction.semanticUnits.isEmpty then
      publish extraction window.text
    else extraction
  (extraction.semanticUnits.filter (fun unit => Text.strip unit.meaning ≠ "")).map .unit ++
    publishable.tasks.map .task ++ publishable.notes.map .note ++
    publishable.decisions.map .decision ++ publishable.issues.map .issue

/-- `artifacts_from_window(window, result)`, drawing new ids from a list. -/
def artifactsFromWindow (identity : String → String)
    (publish : WindowExtractionResult → String → WindowExtractionResult)
    (window : ExtractedWindow) (extraction : WindowExtractionResult) (ids : List String) :
    List MeetingArtifactDocument :=
  let built := (extractionSources publish window extraction).zipWith
    (Source.artifact identity extraction.topics.head? window) ids
  dedupeNewArtifacts (built.filter (fun artifact => !artifact.evidence.isEmpty))

def taskOperation (artifact : MeetingArtifactDocument) : Operation :=
  match artifact.operation with
  | some operation => operation
  | none =>
    if artifact.status = .completed then .complete
    else if artifact.status = .rejected ∨ artifact.status = .cancelled then .cancel
    else if artifact.resolution = .update ∨ artifact.status = .modified ∨
        artifact.status = .assigned ∨ artifact.status = .active then .update
    else if artifact.needsConfirmation then .needsConfirmation
    else .create

/-- `artifact_to_task(artifact, conversation_id, space_id)`. `fingerprint`
is `task_fingerprint` for the space. -/
def artifactToTask (fingerprint : ExtractedTask → String) (artifact : MeetingArtifactDocument)
    (conversationId : String) : Option ExtractedTask :=
  if artifact.evidence = [] then none
  else
    let operation := taskOperation artifact
    let task : ExtractedTask :=
      { title := artifact.title
        body := orElse artifact.content artifact.title
        operation := operation
        existingTaskId := artifact.existingTaskId
        ownerText := artifact.ownerText
        ownerUserId := artifact.ownerUserId
        dueDateText := artifact.dueDateText
        dueDateResolved := artifact.dueDateResolved
        dueDateStatus := artifact.dueDateStatus
        confidence := artifact.confidence
        needsConfirmation := artifact.needsConfirmation || operation = .needsConfirmation
        sourceConversationId := conversationId
        fingerprint := orElse? artifact.fingerprint (some artifact.identityKey)
        evidence := artifact.evidence
        artifactId := some artifact.id
        sourceWindowId := artifact.sourceWindowId
        changes := [("artifactType", some artifact.artifactType.value),
          ("parentArtifactId", artifact.parentArtifactId)]
        origin :=
          if artifact.reason = some "explicit" ∨ artifact.reason = some "strongly_inferred" then
            artifact.reason.getD ""
          else "unknown" }
    some { task with fingerprint := orElse? task.fingerprint (some (fingerprint task)) }

end AiBuddy.Conversation
