import Mathlib.Algebra.Order.Ring.Unbundled.Rat
import AiBuddy.Conversation.Artifacts
import AiBuddy.Misc.Keyed

/-!
# Reconciling new artifacts with the ledger

`services/conversation/artifact_resolver.py:48`, `:137` to `:460`. A list that the source
mutates is passed through; copying a document keeps its value, so `_copy_artifact` does not
show, and neither do the printed messages.
-/

namespace AiBuddy.Conversation

open Keyed

def normalize (unicode : Text.Unicode) (text : String) : String :=
  Text.strip (Text.collapseSpaces (unicode.foldKC text))

def tokens (unicode : Text.Unicode) (text : String) : List String :=
  Text.runs unicode.isWord (normalize unicode text)

def preferRicher (unicode : Text.Unicode) (current incoming : String) : String :=
  if incoming = "" then current
  else if current = "" then incoming
  else if current.length ≤ incoming.length ∨
      (tokens unicode incoming).any (fun token => token ∉ tokens unicode current) then incoming
  else current

/-- The key of `_merge_evidence`. -/
def evidenceKey (unicode : Text.Unicode) (span : EvidenceSpan) : String :=
  span.sequenceStart.repr ++ ":" ++ span.sequenceEnd.repr ++ ":" ++
    Text.take 80 (normalize unicode span.text)

def firstByKey {α : Type} (key : α → String) : List String → List α → List α
  | _, [] => []
  | seen, value :: rest =>
    if key value ∈ seen then firstByKey key seen rest
    else value :: firstByKey key (key value :: seen) rest

def mergeEvidence (unicode : Text.Unicode) (left right : List EvidenceSpan) : List EvidenceSpan :=
  (firstByKey (evidenceKey unicode) [] (left ++ right)).take 8

def unique (values : List String) : List String :=
  firstByKey id [] (values.filter (fun value => value ≠ ""))

def sortedUnion (left right : List Int) : List Int :=
  (left ++ right).dedup.insertionSort (· ≤ ·)

def minOptional (left right : Option Int) : Option Int := ([left, right].filterMap id).min?

def maxOptional (left right : Option Int) : Option Int := ([left, right].filterMap id).max?

def findById (existing : List MeetingArtifactDocument) (artifactId : Option String) :
    Option MeetingArtifactDocument :=
  match artifactId with
  | none => none
  | some wanted => if wanted = "" then none else find? MeetingArtifactDocument.id wanted existing

/-- `_append_history(...)`. `matched.history[-7:]` is the last seven
entries. -/
def appendHistory (matched incoming : MeetingArtifactDocument)
    (resolution : ArtifactResolutionKind) (previousContent : String)
    (reconcileAction : Option ReconcileAction) : MeetingArtifactDocument :=
  { matched with
    history := matched.history.drop (matched.history.length - 7) ++
      [{ sourceWindowId := incoming.sourceWindowId
         resolution := resolution
         change := orElse incoming.content incoming.title
         previousContent := some previousContent
         evidence := incoming.evidence
         reconcileAction := reconcileAction }] }

structure ResolutionResult where
  incoming : MeetingArtifactDocument
  resolution : ArtifactResolutionKind
  matched : Option MeetingArtifactDocument := none
  reconcileAction : Option ReconcileAction := none

def resolutionFromAction (action : ReconcileAction) (incoming : MeetingArtifactDocument)
    (matched : Option MeetingArtifactDocument) : ResolutionResult :=
  match matched, action with
  | none, _ | some _, .createNew =>
    { incoming := incoming, resolution := .new, reconcileAction := some action }
  | some target, .updateExisting =>
    { incoming := incoming, resolution := .update, matched := some target
      reconcileAction := some action }
  | some target, .completeExisting =>
    { incoming := { incoming with status := .completed, operation := some .complete }
      resolution := .completion, matched := some target, reconcileAction := some action }
  | some target, .cancelExisting =>
    { incoming := { incoming with status := .cancelled, operation := some .cancel }
      resolution := .contradiction, matched := some target, reconcileAction := some action }
  | some target, .supersedeExisting =>
    { incoming := { incoming with resolution := .contradiction }
      resolution := .contradiction, matched := some target, reconcileAction := some action }
  | some target, .relatedButDistinct =>
    { incoming :=
        { incoming with relatedArtifactIds := unique (incoming.relatedArtifactIds ++ [target.id]) }
      resolution := .related, matched := some target, reconcileAction := some action }

section Merging

variable (unicode : Text.Unicode) (matched incoming : MeetingArtifactDocument)
  (action : Option ReconcileAction)

/-- What the cancelling, duplicate, completing and updating branches have in common: the
incoming windows, chunks and evidence are added to the target. -/
def mergeSources : MeetingArtifactDocument :=
  { matched with
    sourceWindowIds := unique (matched.sourceWindowIds ++ incoming.sourceWindowIds)
    sourceChunkIds := sortedUnion matched.sourceChunkIds incoming.sourceChunkIds
    evidence := mergeEvidence unicode matched.evidence incoming.evidence }

def cancelled : MeetingArtifactDocument :=
  { mergeSources unicode (appendHistory matched incoming .contradiction matched.content action)
      incoming with
    status := .cancelled
    operation := some .cancel }

def duplicated : MeetingArtifactDocument :=
  { mergeSources unicode (appendHistory matched incoming .duplicate matched.content action)
      incoming with
    sourceStartIndex := minOptional matched.sourceStartIndex incoming.sourceStartIndex
    sourceEndIndex := maxOptional matched.sourceEndIndex incoming.sourceEndIndex
    confidence := max matched.confidence incoming.confidence }

def completed : MeetingArtifactDocument :=
  { mergeSources unicode (appendHistory matched incoming .completion matched.content action)
      incoming with
    status := .completed
    operation := some .complete }

def updated : MeetingArtifactDocument :=
  { mergeSources unicode (appendHistory matched incoming .update matched.content action)
      incoming with
    title := orElse incoming.title matched.title
    content := preferRicher unicode matched.content incoming.content
    ownerText := orElse? incoming.ownerText matched.ownerText
    ownerUserId := orElse? incoming.ownerUserId matched.ownerUserId
    dueDateText := orElse? incoming.dueDateText matched.dueDateText
    dueDateResolved := orElse? incoming.dueDateResolved matched.dueDateResolved
    dueDateStatus :=
      if incoming.dueDateStatus = .none then matched.dueDateStatus else incoming.dueDateStatus
    topic := orElse? incoming.topic matched.topic
    semanticHint :=
      if incoming.semanticHint.getD "" ≠ "" ∧ matched.semanticHint.getD "" = "" then
        incoming.semanticHint
      else matched.semanticHint
    status := .active
    resolution := .update
    sourceStartIndex := minOptional matched.sourceStartIndex incoming.sourceStartIndex
    sourceEndIndex := maxOptional matched.sourceEndIndex incoming.sourceEndIndex
    confidence := max matched.confidence incoming.confidence
    needsConfirmation := matched.needsConfirmation && incoming.needsConfirmation }

/-- The target of the superseding branch, `:226`. -/
def supersededTarget : MeetingArtifactDocument :=
  { appendHistory matched incoming .contradiction matched.content action with
    status := .superseded
    supersededBy := some incoming.id }

/-- The successor of the superseding branch, `:230`. -/
def successor : MeetingArtifactDocument :=
  { incoming with
    status := .confirmed
    supersedes := some matched.id
    reason := some (orElse (incoming.reason.getD "") (orElse incoming.content incoming.title))
    relatedArtifactIds := unique (incoming.relatedArtifactIds ++ [matched.id]) }

/-- The target of the relating branch, `:200`. -/
def relatedTarget : MeetingArtifactDocument :=
  { matched with relatedArtifactIds := unique (matched.relatedArtifactIds ++ [incoming.id]) }

/-- The new artifact of the relating branch, `:198`. -/
def relatedIncoming : MeetingArtifactDocument :=
  { incoming with
    status := .provisional
    relatedArtifactIds := unique (incoming.relatedArtifactIds ++ [matched.id]) }

end Merging

/-- The test of the cancelling branch, `:187`. -/
def cancels (incoming : MeetingArtifactDocument) : Bool :=
  incoming.status = .cancelled || incoming.status = .rejected ||
    incoming.operation = some .cancel

/-- `apply_resolution(existing, result)`: the list as it is left,
and the artifact returned. A status is never blank, and no branch returns None. -/
def applyResolution (unicode : Text.Unicode) (existing : List MeetingArtifactDocument)
    (result : ResolutionResult) : List MeetingArtifactDocument × MeetingArtifactDocument :=
  let incoming := { result.incoming with resolution := result.resolution }
  match result.matched with
  | none => (existing, incoming)
  | some matched =>
    if result.resolution = .new then (existing, incoming)
    else if cancels incoming then
      (existing, cancelled unicode matched incoming result.reconcileAction)
    else
      match result.resolution with
      | .related =>
        (replaceOrAppend MeetingArtifactDocument.id (relatedTarget matched incoming) existing,
          relatedIncoming matched incoming)
      | .duplicate => (existing, duplicated unicode matched incoming result.reconcileAction)
      | .completion => (existing, completed unicode matched incoming result.reconcileAction)
      | .contradiction =>
        (replaceOrAppend MeetingArtifactDocument.id
          (supersededTarget matched incoming result.reconcileAction) existing,
          successor matched incoming)
      | .new | .update => (existing, updated unicode matched incoming result.reconcileAction)

def ReconcileAction.modifying : ReconcileAction → Bool
  | .updateExisting | .completeExisting | .cancelExisting | .supersedeExisting => true
  | .createNew | .relatedButDistinct => false

/-- `by_index.get(index)`: the last decision for an index. -/
def decisionAt (decisions : List ArtifactReconcileDecision) (index : Nat) :
    Option ArtifactReconcileDecision :=
  decisions.reverse.find? (fun decision => decision.incomingIndex = index)

def actionAt (decisions : List ArtifactReconcileDecision) (index : Nat) : ReconcileAction :=
  match decisionAt decisions index with
  | some decision => decision.action
  | none => .createNew

def targetAt (decisions : List ArtifactReconcileDecision) (index : Nat) : Option String :=
  (decisionAt decisions index).bind ArtifactReconcileDecision.targetArtifactId

/-- The incoming artifact with the evidence of its decision, `:161`. -/
def withEvidence (unicode : Text.Unicode) (decision : Option ArtifactReconcileDecision)
    (item : MeetingArtifactDocument) : MeetingArtifactDocument :=
  { item with
    evidence :=
      match decision with
      | some decision =>
        if decision.evidence = [] then item.evidence
        else mergeEvidence unicode item.evidence decision.evidence
      | none => item.evidence }

/-- One turn of the loop of `apply_llm_decisions`. -/
def applyDecision (unicode : Text.Unicode) (decisions : List ArtifactReconcileDecision)
    (index : Nat) (item : MeetingArtifactDocument) (working : List MeetingArtifactDocument) :
    List MeetingArtifactDocument :=
  let action := actionAt decisions index
  let matched := findById working (targetAt decisions index)
  if action.modifying && matched.isNone then working
  else
    let action :=
      if action = .relatedButDistinct ∧ matched.isNone then .createNew else action
    let incoming := withEvidence unicode (decisionAt decisions index) item
    let (working, applied) :=
      applyResolution unicode working (resolutionFromAction action incoming matched)
    replaceOrAppend MeetingArtifactDocument.id applied working

/-- The loop of `apply_llm_decisions` from an index on. -/
def applyFrom (unicode : Text.Unicode) (decisions : List ArtifactReconcileDecision) :
    Nat → List MeetingArtifactDocument → List MeetingArtifactDocument →
      List MeetingArtifactDocument
  | _, [], working => working
  | index, item :: rest, working =>
    applyFrom unicode decisions (index + 1) rest
      (applyDecision unicode decisions index item working)

def applyLlmDecisions (unicode : Text.Unicode) (existing incoming : List MeetingArtifactDocument)
    (decisions : List ArtifactReconcileDecision) : List MeetingArtifactDocument :=
  applyFrom unicode decisions 0 incoming existing

def resolveIncomingArtifacts (unicode : Text.Unicode)
    (existing incoming : List MeetingArtifactDocument)
    (decisions : Option (List ArtifactReconcileDecision) := none) :
    List MeetingArtifactDocument :=
  if incoming = [] then existing
  else
    match decisions.getD [] with
    | [] => applyLlmDecisions unicode existing incoming
        ((List.range incoming.length).map (fun index => { incomingIndex := index }))
    | resolved => applyLlmDecisions unicode existing incoming resolved

def invalidModifyingDecisions (decisions : List ArtifactReconcileDecision)
    (existing : List MeetingArtifactDocument) : List ArtifactReconcileDecision :=
  decisions.filter (fun decision =>
    let target := Text.strip (decision.targetArtifactId.getD "")
    decision.action.modifying &&
      (target = "" || target ∉ existing.map MeetingArtifactDocument.id))

end AiBuddy.Conversation

/-!
## The artifact ledger over many windows

What one decision does with an incoming artifact, what it means that nothing of an
artifact is lost, and the lifecycle of artifacts over a sequence of reconciled batches.
-/

namespace AiBuddy.Conversation

def idsOf (artifacts : List MeetingArtifactDocument) : List String :=
  artifacts.map MeetingArtifactDocument.id

inductive Outcome where
  | skipped
  | created
  | cancelled
  | completed
  | updated
  | superseded
  | related
deriving DecidableEq

/-- The outcome of an action, by the incoming artifact and whether the target was found. An
incoming artifact that says it is cancelled cancels its target whatever the action. -/
def outcome (action : ReconcileAction) (item : MeetingArtifactDocument) (found : Bool) :
    Outcome :=
  if found then
    match action with
    | .createNew => .created
    | .completeExisting => .completed
    | .cancelExisting => .cancelled
    | .updateExisting => if cancels item then .cancelled else .updated
    | .supersedeExisting => if cancels item then .cancelled else .superseded
    | .relatedButDistinct => if cancels item then .cancelled else .related
  else if action.modifying then .skipped
  else .created

structure Carries (artifact item : MeetingArtifactDocument) : Prop where
  windows : ∀ window ∈ item.sourceWindowIds, window ≠ "" → window ∈ artifact.sourceWindowIds
  chunks : ∀ chunk ∈ item.sourceChunkIds, chunk ∈ artifact.sourceChunkIds

/-- An incoming item is in the list under its own id, or its sources are those of the target. -/
def Accounted (target : Option String) (item : MeetingArtifactDocument)
    (artifacts : List MeetingArtifactDocument) : Prop :=
  ∃ artifact ∈ artifacts, Carries artifact item ∧
    (artifact.id = item.id ∨ target = some artifact.id)

structure Batch where
  incoming : List MeetingArtifactDocument
  decisions : List ArtifactReconcileDecision

inductive Mark where
  | untouched
  | closed
  | reactivated
deriving DecidableEq

structure Ledger where
  artifacts : List MeetingArtifactDocument
  marks : String → Mark

/-- The marks after a decision: completing and cancelling close an artifact, updating
reactivates it, and a new artifact is untouched. -/
def marksAfter (kind : Outcome) (item : MeetingArtifactDocument)
    (matched : Option MeetingArtifactDocument) (marks : String → Mark) : String → Mark :=
  match kind, matched with
  | .cancelled, some target | .completed, some target =>
    fun id => if id = target.id then .closed else marks id
  | .updated, some target => fun id => if id = target.id then .reactivated else marks id
  | .created, _ | .superseded, _ | .related, _ =>
    fun id => if id = item.id then .untouched else marks id
  | _, _ => marks

/-- One turn of the loop of `apply_llm_decisions`, with the marks. -/
def Ledger.decide (unicode : Text.Unicode) (decisions : List ArtifactReconcileDecision)
    (index : Nat) (item : MeetingArtifactDocument) (ledger : Ledger) : Ledger :=
  let matched := findById ledger.artifacts (targetAt decisions index)
  { artifacts := applyDecision unicode decisions index item ledger.artifacts
    marks := marksAfter (outcome (actionAt decisions index) item matched.isSome) item matched
      ledger.marks }

def Ledger.decideFrom (unicode : Text.Unicode) (decisions : List ArtifactReconcileDecision) :
    Nat → List MeetingArtifactDocument → Ledger → Ledger
  | _, [], ledger => ledger
  | index, item :: rest, ledger =>
    decideFrom unicode decisions (index + 1) rest (ledger.decide unicode decisions index item)

/-- One `apply_llm_decisions`, with the marks. -/
def Ledger.apply (unicode : Text.Unicode) (ledger : Ledger) (batch : Batch) : Ledger :=
  ledger.decideFrom unicode batch.decisions 0 batch.incoming

/-- What every artifact of an extraction is like: nothing has superseded it, and it is completed
or cancelled when its operation says so. -/
structure Extracted (item : MeetingArtifactDocument) : Prop where
  supersededBy : item.supersededBy = none
  complete : item.operation = some .complete → item.status = .completed
  cancel : item.operation = some .cancel → item.status = .cancelled

structure Batch.Fresh (batch : Batch) (ledger : Ledger) : Prop where
  distinct : (idsOf batch.incoming).Nodup
  fresh : ∀ item ∈ batch.incoming, item.id ∉ idsOf ledger.artifacts
  extracted : ∀ item ∈ batch.incoming, Extracted item

def closing (operation : Option Operation) : Bool :=
  operation = some .complete || operation = some .cancel

/-- The decision does not touch a superseded artifact's status, does not reactivate an artifact
with an operation that ends it, does not supersede an artifact that a decision closed, and does
not add one that calls itself superseded. -/
def Orderly (kind : Outcome) (item : MeetingArtifactDocument)
    (matched : Option MeetingArtifactDocument) (marks : String → Mark) : Prop :=
  match kind, matched with
  | .created, _ => item.status ≠ .superseded
  | .cancelled, some target | .completed, some target => target.status ≠ .superseded
  | .updated, some target =>
    target.status ≠ .superseded ∧ closing target.operation = false
  | .superseded, some target => marks target.id ≠ .closed
  | _, _ => True

def OrderlyFrom (unicode : Text.Unicode) (decisions : List ArtifactReconcileDecision) :
    Nat → List MeetingArtifactDocument → Ledger → Prop
  | _, [], _ => True
  | index, item :: rest, ledger =>
    (let matched := findById ledger.artifacts (targetAt decisions index)
    Orderly (outcome (actionAt decisions index) item matched.isSome) item matched ledger.marks) ∧
    OrderlyFrom unicode decisions (index + 1) rest (ledger.decide unicode decisions index item)

def FreshRun (unicode : Text.Unicode) : List Batch → Ledger → Prop
  | [], _ => True
  | batch :: rest, ledger => batch.Fresh ledger ∧ FreshRun unicode rest (ledger.apply unicode batch)

def OrderlyRun (unicode : Text.Unicode) : List Batch → Ledger → Prop
  | [], _ => True
  | batch :: rest, ledger =>
    OrderlyFrom unicode batch.decisions 0 batch.incoming ledger ∧
      OrderlyRun unicode rest (ledger.apply unicode batch)

/-- An artifact is superseded exactly when it names its successor, the successor names it back,
a closed artifact has the status of its operation, and one that was reactivated no longer has an
operation that ends it. -/
structure Lifecycle (ledger : Ledger) : Prop where
  distinct : (idsOf ledger.artifacts).Nodup
  linked : ∀ artifact ∈ ledger.artifacts,
    artifact.supersededBy.isSome = true ↔ artifact.status = .superseded
  back : ∀ artifact ∈ ledger.artifacts, ∀ id, artifact.supersededBy = some id →
    ∃ successor ∈ ledger.artifacts, successor.id = id ∧ successor.supersedes = some artifact.id
  closed : ∀ artifact ∈ ledger.artifacts, ledger.marks artifact.id = .closed →
    (artifact.operation = some .complete → artifact.status = .completed) ∧
      (artifact.operation = some .cancel → artifact.status = .cancelled)
  reactivated : ∀ artifact ∈ ledger.artifacts, ledger.marks artifact.id = .reactivated →
    closing artifact.operation = false ∧
      (artifact.status = .active ∨ artifact.status = .superseded)

end AiBuddy.Conversation
