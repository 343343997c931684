import AiBuddy.MeetingPipeline.Harness
import AiBuddy.MeetingPipeline.Schemas

/-!
# Claims from candidates

`services/conversation/meeting_pipeline/consolidator.py:393` to `:702`: what makes a claim of a
candidate, and the recovery of notes that the consolidator left unpublished.
-/

namespace AiBuddy.MeetingPipeline

open EventPipeline

variable (host : Host)

def noteKinds : List CandidateKind :=
  [.requirement, .decision, .fact, .rationale, .issue, .idea, .question]

def isNoteKind (candidate : MeetingCandidate) : Bool := candidate.kind ∈ noteKinds

def titleParaphrase : Rat := 72 / 100

def noteParaphrase : Rat := 55 / 100

def ArtifactClaim.cites (claim : ArtifactClaim) (candidateId : String) : Prop :=
  candidateId ∈ claim.sourceCandidateIds

def citedBy (kind : ArtifactKind) (artifacts : List ArtifactClaim) : List String :=
  (artifacts.filter (·.kind = kind)).flatMap (·.sourceCandidateIds)

/-- What `_title_from_meaning` cuts a meaning at. -/
def sentenceEnds : List String := [". ", "à¥¤ ", "? ", "! "]

def titleFromMeaning (meaning : String) : String :=
  let text := cleanInline meaning
  if text.length ≤ 80 then text
  else
    let cut := sentenceEnds.findSome? fun separator =>
      (Text.find? separator.toList text.toList).filter fun index => 12 ≤ index ∧ index ≤ 80
    match cut with
    | some index => Text.take index text
    | none =>
      let clipped := text.toList.take 80
      if ' ' ∈ clipped then .ofList ((clipped.reverse.dropWhile (· ≠ ' ')).drop 1).reverse
      else .ofList clipped

section Ledger

variable (ledger : CandidateLedger) (meetingSequences : Int → Bool)

def clipEvidence (values : List Int) (sourceIds : List String) : List Int :=
  if sourceIds = [] then []
  else
    let union := ledger.evidenceUnion sourceIds
    let sequences := (values.filter fun sequence =>
      meetingSequences sequence && sequence ∈ union).eraseDups
    if sequences = [] then union.filter meetingSequences else sequences

/-- `values` and then those of `more` that are not there yet. -/
def appendNew {α : Type} [DecidableEq α] (values more : List α) : List α :=
  more.foldl (fun kept value => if value ∈ kept then kept else kept ++ [value]) values

def appendToNote (note : ArtifactClaim) (candidate : MeetingCandidate) : ArtifactClaim :=
  let meaning := cleanInline candidate.meaning
  let body := cleanMultiline note.body
  let grown :=
    if meaning ≠ "" ∧ Text.contains (host.casefold meaning) (host.casefold body) = false then
      if body = "" then meaning else body ++ "\n- " ++ meaning
    else body
  { note with
    body := grown
    sourceCandidateIds := appendNew note.sourceCandidateIds [candidate.candidateId]
    evidenceSequences := appendNew note.evidenceSequences
      (clipEvidence ledger meetingSequences candidate.evidenceSequences [candidate.candidateId]) }

def noteFromCandidate (candidate : MeetingCandidate) (offset : Nat) : Option ArtifactClaim :=
  let meaning := cleanInline candidate.meaning
  let topic := normalizeTopic candidate.topic
  let title := topic.getD (titleFromMeaning meaning)
  if title = "" ∨ meaning = "" then none
  else
    let evidence := clipEvidence ledger meetingSequences candidate.evidenceSequences
      [candidate.candidateId]
    if evidence = [] then none
    else some {
      artifactKey := "note:recovered:" ++ toString offset ++ ":" ++ title
      kind := .note
      title := title
      body := if topic.isSome then "- " ++ meaning else meaning
      topic := topic
      sourceCandidateIds := [candidate.candidateId]
      evidenceSequences := evidence }

/-- The first of the best candidates, as `max` with a key finds it. -/
def bestMatch (score : MeetingCandidate → Rat) : List MeetingCandidate → Option MeetingCandidate
  | [] => none
  | first :: rest => some (rest.foldl (fun best candidate =>
      if score best < score candidate then candidate else best) first)

/-- The candidates that a task only rests on: those cited besides the one its title is about,
`consolidator.py:641`. -/
def supportingOf (task : ArtifactClaim) : List MeetingCandidate :=
  let cited := task.sourceCandidateIds.filterMap ledger.byId
  if cited.length < 2 then []
  else
    match bestMatch (fun candidate => tokenJaccard host candidate.meaning task.title) cited with
    | none => []
    | some primary => cited.filter (·.candidateId ≠ primary.candidateId)

def supportingCandidatesFromTasks (artifacts : List ArtifactClaim) (cited : List String) :
    List MeetingCandidate :=
  ((artifacts.filter (·.kind = .task)).flatMap (supportingOf host ledger)).foldl
    (fun pending candidate =>
      if candidate.candidateId ∈ cited ∨ candidate.candidateId ∈ pending.map (·.candidateId) then
        pending
      else pending ++ [candidate]) []

/-- One artifact of the loop of `_memory_already_published`. -/
def publishes (meaning : String) (item : ArtifactClaim) : Bool :=
  match item.kind with
  | .task => titleParaphrase ≤ tokenJaccard host meaning item.title
  | .note =>
    titleParaphrase ≤ tokenJaccard host meaning item.title ||
      noteParaphrase ≤ tokenJaccard host meaning (Text.strip (item.title ++ " " ++ item.body)) ||
      Text.contains (host.casefold (cleanInline meaning)) (host.casefold (cleanInline item.body))

def memoryAlreadyPublished (meaning : String) (artifacts : List ArtifactClaim) : Bool :=
  artifacts.any (publishes host meaning)

def topicNoteIndex (candidate : MeetingCandidate) (artifacts : List ArtifactClaim) : Option Nat :=
  if topicKey host candidate.topic = "" then none
  else artifacts.findIdx? fun item => item.kind = .note ∧ sameTopic host item.topic candidate.topic

/-- The state of the loop of `recover_unpublished_notes`. -/
structure Recovery where
  recovered : List ArtifactClaim
  citedByNotes : List String
  offset : Nat
deriving DecidableEq

def recoverCandidate (state : Recovery) (candidate : MeetingCandidate) : Recovery :=
  let next := { state with offset := state.offset + 1 }
  let cited := candidate.candidateId :: state.citedByNotes
  if candidate.candidateId ∈ state.citedByNotes then next
  else if memoryAlreadyPublished host candidate.meaning state.recovered then next
  else
    match topicNoteIndex host candidate state.recovered with
    | some target =>
      { next with
        recovered := state.recovered.modify target fun note =>
          appendToNote host ledger meetingSequences note candidate
        citedByNotes := cited }
    | none =>
      match noteFromCandidate ledger meetingSequences candidate state.offset with
      | none => next
      | some claim =>
        { next with recovered := state.recovered ++ [claim], citedByNotes := cited }

def unpublishedCandidates (artifacts : List ArtifactClaim) (discarded : List String) :
    List MeetingCandidate :=
  let citedByNotes := citedBy .note artifacts
  let skip := if citedByNotes = [] then discarded else discarded ++ citedBy .task artifacts
  let pending := ledger.candidates.filter fun candidate =>
    isNoteKind candidate && candidate.candidateId ∉ citedByNotes && candidate.candidateId ∉ skip
  if artifacts.any (·.kind = .note) = false ∧ pending = [] then
    supportingCandidatesFromTasks host ledger artifacts (citedByNotes ++ skip)
  else pending

def recoverUnpublishedNotes (artifacts : List ArtifactClaim) (discarded : List String) :
    List ArtifactClaim :=
  ((unpublishedCandidates host ledger artifacts discarded).foldl
    (recoverCandidate host ledger meetingSequences)
    ⟨artifacts, citedBy .note artifacts, 0⟩).recovered

end Ledger

end AiBuddy.MeetingPipeline

/-!
## Repeated tasks

`services/conversation/meeting_pipeline/task_eligibility.py`: when two tasks are the same work, and
the pass that keeps the first of them.
-/

namespace AiBuddy.MeetingPipeline

open EventPipeline

variable (host : Host)

def titleOverlap : Rat := 72 / 100

def norm (text : String) : String := host.casefold (cleanInline text)

/-- `_tokens(text)`. -/
def wordTokens (text : String) : List String :=
  (((Text.runs host.isWord text).map host.casefold).filter fun folded =>
    folded ≠ "" && (1 < folded.length || folded.toList.any fun c => 128 ≤ c.toNat)).eraseDups

def tokenOverlap (left right : String) : Rat :=
  jaccard (wordTokens host left) (wordTokens host right)

def ArtifactClaim.text (claim : ArtifactClaim) : String := claim.title ++ " " ++ claim.body

/-- One task of the loop of `_task_already_published`. -/
def sameWork (claim item : ArtifactClaim) : Bool :=
  let title := norm host claim.title
  claim.sourceCandidateIds.any (· ∈ item.sourceCandidateIds) ||
    (title ≠ "" && title = norm host item.title) ||
    titleOverlap ≤ tokenOverlap host title (norm host item.title) ||
    titleOverlap ≤ tokenOverlap host (norm host claim.text) (norm host item.text)

def taskAlreadyPublished (claim : ArtifactClaim) (artifacts : List ArtifactClaim) : Bool :=
  artifacts.any fun item => item.kind = .task && sameWork host claim item

/-- The loop of `unique_task_claims`: the tasks seen, and the claims still to come. -/
def uniqueFrom : List ArtifactClaim → List ArtifactClaim → List ArtifactClaim
  | _, [] => []
  | seenTasks, item :: rest =>
    if item.kind = .task then
      if taskAlreadyPublished host item seenTasks then uniqueFrom seenTasks rest
      else item :: uniqueFrom (seenTasks ++ [item]) rest
    else item :: uniqueFrom seenTasks rest

def uniqueTaskClaims (artifacts : List ArtifactClaim) : List ArtifactClaim :=
  uniqueFrom host [] artifacts

end AiBuddy.MeetingPipeline
