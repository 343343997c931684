import AiBuddy.MeetingPipeline.Harness
import AiBuddy.MeetingPipeline.Schemas

/-!
# The evidence verifier

`services/conversation/meeting_pipeline/verifier.py` and `invariants.py`. The replies of the
language model are arbitrary: the reply to a call is a function of the number of calls made so far.
A run keeps the log of its calls, and `none` is a run that raised.
-/

namespace AiBuddy.MeetingPipeline

/-- One artifact of a review request, `verifier.py:126`. -/
structure ReviewItem where
  artifactKey : String
  kind : ArtifactKind
  title : String
  body : String
  acceptanceCriteria : Option String
  owner : Option String
  dueDate : Option String
  evidence : List (Int × String)
deriving DecidableEq

/-- What `generate_structured` does for a review: the items of the response, an error, or an error
that `reraise_if_hard_runtime` raises again. -/
inductive ReviewReply
  | items (rows : List VerifierItem)
  | error
  | hardError
deriving DecidableEq

/-- What `generate_structured` does for a repair. -/
inductive RepairReply
  | response (reply : MeetingArtifactRepairResponse)
  | error
deriving DecidableEq

inductive Call
  | review (request : List ReviewItem) (reply : ReviewReply)
  | repair (item : VerifiedArtifact) (reply : RepairReply)
deriving DecidableEq

structure Replies where
  review : Nat → ReviewReply
  repair : Nat → RepairReply

/-- `{str(item.artifactKey): item for item in items}`, as the function `rows.get`. -/
abbrev Rows := String → Option VerifierItem

variable (casefold : String → String) (replies : Replies) (sequenceText : Int → Option String)
variable (budget : Nat)

def batchSize : Nat := 8

/-- The cost of a claim, `verifier.py:30`. -/
def claimCost (item : ArtifactClaim) : Nat :=
  item.title.length + item.body.length + item.acceptanceCriteria.length +
    (item.evidenceSequences.map fun sequence => ((sequenceText sequence).getD "").length).sum

/-- The loop of `_size_batches`, from the current batch and its size. -/
def sizeBatchesFrom : List ArtifactClaim → Nat → List ArtifactClaim → List (List ArtifactClaim)
  | current, _, [] => if current = [] then [] else [current]
  | current, size, item :: rest =>
    let cost := claimCost sequenceText item
    if current ≠ [] ∧ (batchSize ≤ current.length ∨ budget < size + cost) then
      current :: sizeBatchesFrom [item] cost rest
    else sizeBatchesFrom (current ++ [item]) (size + cost) rest

def sizeBatches (artifacts : List ArtifactClaim) : List (List ArtifactClaim) :=
  sizeBatchesFrom sequenceText budget [] 0 artifacts

/-- The entry of a claim in the payload of `_review_batch`. -/
def reviewItem (item : ArtifactClaim) : ReviewItem where
  artifactKey := item.artifactKey
  kind := item.kind
  title := item.title
  body := item.body
  acceptanceCriteria := if item.acceptanceCriteria = "" then none else some item.acceptanceCriteria
  owner := item.owner
  dueDate := item.dueDate
  evidence := item.evidenceSequences.map fun sequence =>
    (sequence, (sequenceText sequence).getD "")

/-- `_review_batch(batch, sequence_text)`: the call, as the log keeps it. -/
def reviewCall (log : List Call) (batch : List ArtifactClaim) : Call :=
  .review (batch.map (reviewItem sequenceText)) (replies.review log.length)

/-- `rows` right after a reply, `verifier.py:102`: the last item of a key is the one kept. -/
def rowsOf (items : List VerifierItem) : Rows :=
  fun key => items.reverse.find? (·.artifactKey = key)

def setRow (rows : Rows) (key : String) (item : VerifierItem) : Rows :=
  fun other => if other = key then some item else rows other

def missingClaims (batch : List ArtifactClaim) (items : List VerifierItem) : List ArtifactClaim :=
  batch.filter fun claim => (rowsOf items claim.artifactKey).isNone

def strayItems (batch : List ArtifactClaim) (items : List VerifierItem) : List VerifierItem :=
  items.filter fun item => item.artifactKey ∉ batch.map (·.artifactKey)

/-- The loop over the missing claims, `verifier.py:110`. -/
def retryMissing : List ArtifactClaim → Rows → List Call → Option (Rows × List Call)
  | [], rows, log => some (rows, log)
  | claim :: rest, rows, log =>
    let after := log ++ [reviewCall replies sequenceText log [claim]]
    match replies.review log.length with
    | .hardError => none
    | .error => retryMissing rest rows after
    | .items [] => retryMissing rest rows after
    | .items (first :: _) => retryMissing rest (setRow rows claim.artifactKey first) after

/-- What `_review_resilient` does with the items of a reply. -/
def settleReply (batch : List ArtifactClaim) (items : List VerifierItem) (log : List Call) :
    Option (Rows × List Call) :=
  let missing := missingClaims batch items
  let stray := strayItems batch items
  if missing ≠ [] ∧ stray.length = missing.length then
    some ((missing.zip stray).foldl (fun rows pair => setRow rows pair.1.artifactKey pair.2)
      (rowsOf items), log)
  else retryMissing replies sequenceText missing (rowsOf items) log

def reviewResilient (batch : List ArtifactClaim) (log : List Call) : Option (Rows × List Call) :=
  let after := log ++ [reviewCall replies sequenceText log batch]
  match replies.review log.length with
  | .hardError => none
  | .items items => settleReply replies sequenceText batch items after
  | .error =>
    if batch.length ≤ 1 then none
    else
      (reviewResilient (batch.take (batch.length / 2)) after).bind fun left =>
        (reviewResilient (batch.drop (batch.length / 2)) left.2).map fun right =>
          (fun key => (right.1 key).or (left.1 key), right.2)
termination_by batch.length
decreasing_by all_goals simp only [List.length_take, List.length_drop]; omega

/-- `FieldSupport.model_validate(row.fieldSupport.model_dump())`. -/
def VerifierFieldSupport.toSupport (support : VerifierFieldSupport) : FieldSupport where
  title := some support.title
  description := some support.description
  owner := some support.owner
  dueDate := some support.dueDate

/-- The unsupported fields that `_apply_verdict` keeps. -/
def unsupportedOf (row : VerifierItem) : List String :=
  row.unsupportedFields.filter (Text.strip · ≠ "")

/-- The support that `_apply_verdict` reads from a row. -/
def supportOf (row : VerifierItem) : FieldSupport :=
  let folded := (unsupportedOf row).map casefold
  let support := row.fieldSupport.toSupport
  { support with
    owner := if "owner" ∈ folded then some false else support.owner
    dueDate :=
      if "duedate" ∈ folded ∨ "duedatetext" ∈ folded then some false else support.dueDate }

def applyVerdict (claim : ArtifactClaim) (row : Option VerifierItem) : VerifiedArtifact where
  kind := claim.kind
  title := claim.title
  body := claim.body
  owner := claim.owner
  dueDate := claim.dueDate
  priority := claim.priority
  acceptanceCriteria := claim.acceptanceCriteria
  topic := claim.topic
  sourceCandidateIds := claim.sourceCandidateIds
  evidenceSequences := claim.evidenceSequences
  verdict := (row.map (·.verdict)).getD .unsupported
  unsupportedFields := (row.map unsupportedOf).getD []
  fieldSupport := (row.map (supportOf casefold)).getD {}
  reason := (row.map (·.reason)).getD "missing_verifier_verdict"
  artifactKey := claim.artifactKey

def applyFieldSupport (item : VerifiedArtifact) : VerifiedArtifact :=
  { item with
    owner := if item.fieldSupport.owner = some true then item.owner else none
    dueDate := if item.fieldSupport.dueDate = some true then item.dueDate else none }

def stripUnsupportedMetadata (item : VerifiedArtifact) : VerifiedArtifact :=
  let folded := item.unsupportedFields.map casefold
  { item with
    owner := if "owner" ∈ folded ∨ "ownertext" ∈ folded then none else item.owner
    dueDate := if "duedate" ∈ folded ∨ "duedatetext" ∈ folded then none else item.dueDate
    repaired := true }

def metadataFields : List String := ["owner", "dueDate", "ownerText", "dueDateText"]

def optionalText (value : Option String) : Option String :=
  let text := cleanInline (value.getD "")
  if text = "" then none else some text

def firstOr (first second : String) : String := if first = "" then second else first

/-- The artifact that `_llm_repair` makes from a response. -/
def repairedWith (item : VerifiedArtifact) (response : MeetingArtifactRepairResponse) :
    VerifiedArtifact :=
  { item with
    title := firstOr (cleanInline (firstOr response.title item.title)) item.title
    body := firstOr (cleanMultiline (firstOr response.body item.body)) item.body
    acceptanceCriteria := cleanInline (response.acceptanceCriteria.getD item.acceptanceCriteria)
    owner := optionalText response.owner
    dueDate := optionalText response.dueDate
    repaired := true }

/-- Whether `_repair_once` asks for a repair. -/
def needsRepair (item : VerifiedArtifact) : Bool :=
  item.unsupportedFields.any (· ∉ metadataFields) || item.verdict = .partiallySupported

/-- `_llm_repair(item, sequence_text)` and the handler around it: the
artifact and the log after it. -/
def llmRepair (item : VerifiedArtifact) (log : List Call) : VerifiedArtifact × List Call :=
  let reply := replies.repair log.length
  (match reply with
    | .response response => repairedWith item response
    | .error => item, log ++ [.repair item reply])

/-- The claim of a repaired artifact, `verifier.py:166`. -/
def VerifiedArtifact.toClaim (item : VerifiedArtifact) : ArtifactClaim where
  artifactKey := item.artifactKey
  kind := item.kind
  title := item.title
  body := item.body
  owner := item.owner
  dueDate := item.dueDate
  priority := item.priority
  acceptanceCriteria := item.acceptanceCriteria
  topic := item.topic
  sourceCandidateIds := item.sourceCandidateIds
  evidenceSequences := item.evidenceSequences

/-- The end of `_repair_once`, with the row of the second review. -/
def afterRepair (claim : ArtifactClaim) (row : Option VerifierItem) : VerifiedArtifact :=
  let result := { applyFieldSupport (applyVerdict casefold claim row) with repaired := true }
  if result.verdict = .supported then result
  else { result with
    verdict := .unsupported
    reason := firstOr result.reason "repair_not_supported" }

def repairOnce (item : VerifiedArtifact) (log : List Call) :
    Option (VerifiedArtifact × List Call) :=
  let stripped := applyFieldSupport (stripUnsupportedMetadata casefold item)
  let repaired := if needsRepair item then llmRepair replies stripped log else (stripped, log)
  let claim := repaired.1.toClaim
  match replies.review repaired.2.length with
  | .items items =>
    some (afterRepair casefold claim items.head?,
      repaired.2 ++ [reviewCall replies sequenceText repaired.2 [claim]])
  | _ => none

def verifyBatches : List (List ArtifactClaim) → List Call →
    Option (List VerifiedArtifact × List Call)
  | [], log => some ([], log)
  | batch :: rest, log =>
    (reviewResilient replies sequenceText batch log).bind fun reviewed =>
      (verifyBatches rest reviewed.2).map fun later =>
        (batch.map (fun claim =>
            applyFieldSupport (applyVerdict casefold claim (reviewed.1 claim.artifactKey))) ++
          later.1, later.2)

/-- The loop over the verdicts, `verifier.py:67`. -/
def repairPartial : List VerifiedArtifact → List Call →
    Option (List VerifiedArtifact × List Call)
  | [], log => some ([], log)
  | item :: rest, log =>
    if item.verdict = .partiallySupported then
      (repairOnce casefold replies sequenceText item log).bind fun once =>
        (repairPartial rest once.2).map fun later => (once.1 :: later.1, later.2)
    else (repairPartial rest log).map fun later => (item :: later.1, later.2)

/-- `ArtifactEvidenceVerifier.verify(artifacts, sequence_text)`: what it returns
and the calls it made. -/
def verify (artifacts : List ArtifactClaim) : Option (List VerifiedArtifact × List Call) :=
  (verifyBatches casefold replies sequenceText (sizeBatches sequenceText budget artifacts) []).bind
    fun verified => repairPartial casefold replies sequenceText verified.1 verified.2

def persistenceReady (ledger : CandidateLedger) (conversationId : String)
    (artifact : VerifiedArtifact) : Bool × String :=
  if artifact.verdict ≠ .supported then (false, "verifier_not_supported")
  else if Text.strip artifact.title = "" then (false, "missing_title")
  else if artifact.kind = .note ∧ Text.strip artifact.body = "" then (false, "missing_note_body")
  else if artifact.evidenceSequences = [] then (false, "missing_evidence")
  else if artifact.evidenceSequences.any fun sequence => (sequenceText sequence).isNone then
    (false, "fabricated_or_foreign_sequence")
  else if artifact.sourceCandidateIds = [] then (false, "missing_source_candidate_ids")
  else if artifact.sourceCandidateIds.any fun id => (ledger.byId id).isNone then
    (false, "unknown_source_candidate")
  else if artifact.evidenceSequences.any (· ∉ ledger.evidenceUnion artifact.sourceCandidateIds) then
    (false, "evidence_not_from_source_candidates")
  else if conversationId ≠ "" ∧ artifact.evidenceSequences.any (· < 0) then
    (false, "invalid_sequence")
  else (true, "ok")

/-- `apply_invariant_gate(artifacts, ...)`: the accepted artifacts and the
rejected ones. -/
def applyInvariantGate (ledger : CandidateLedger) (conversationId : String)
    (artifacts : List VerifiedArtifact) : List VerifiedArtifact × List VerifiedArtifact :=
  let ready := persistenceReady sequenceText ledger conversationId
  (artifacts.filter fun artifact => (ready artifact).1,
    (artifacts.filter fun artifact => !(ready artifact).1).map fun artifact =>
      { artifact with
        reason := firstOr artifact.reason (ready artifact).2
        verdict := .unsupported })

end AiBuddy.MeetingPipeline
