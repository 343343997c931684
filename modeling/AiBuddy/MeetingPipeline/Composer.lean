import AiBuddy.MeetingPipeline.Consolidator
import AiBuddy.Misc.Groups

/-!
# Composition of tasks and notes

`services/conversation/meeting_pipeline/composer.py`. The counters that `compose_artifacts` reports
are left out.
-/

namespace AiBuddy.MeetingPipeline

open EventPipeline

/-- What the composer asks about the first letter of a text: `str.isalpha` together with
`str.islower`, and `str.upper`. -/
structure Letters where
  isLower : Char → Bool
  upper : Char → String

variable (host : Host) (letters : Letters)

def contextKinds : List CandidateKind := [.requirement, .decision, .fact, .rationale, .issue]

def isContextKind (candidate : MeetingCandidate) : Bool := candidate.kind ∈ contextKinds

def maxExtra : Nat := 4

def maxCluster : Nat := 12

def isShallow (title body : String) : Bool :=
  let heading := normalizeText title
  let text := normalizeText body
  if heading = "" then false
  else if text = "" ∨ host.casefold text = host.casefold heading then true
  else if 82 / 100 ≤ tokenJaccard host heading text ∧ text.length ≤ heading.length + 48 then true
  else text.length ≤ max (heading.length + 8) (heading.length * 12 / 10)

def alreadyCovered (meaning blob : String) : Bool :=
  let text := normalizeText meaning
  if text = "" then true
  else if Text.contains (host.casefold text) (host.casefold (normalizeText blob)) then true
  else 78 / 100 ≤ tokenJaccard host text blob

def capitalize (text : String) : String :=
  match text.toList with
  | [] => ""
  | c :: cs => letters.upper c ++ .ofList cs

def asSentence (text : String) : String :=
  let value := normalizeText text
  if value = "" then ""
  else
    let shown := if value.toList.head?.any letters.isLower then capitalize letters value else value
    if shown.toList.getLast?.any (· ∈ ['.', '!', '?', '।']) then shown else shown ++ "."

def composeBody (title lead : String) (extras : List String) : String :=
  let parts := (lead :: extras).foldl (fun parts raw =>
    let text := normalizeText raw
    if text = "" ∨ parts.any (alreadyCovered host text) then parts
    else parts ++ [asSentence letters text]) []
  let detailed := parts.filter fun part => !isShallow host title part
  let shown := if extras ≠ [] ∧ detailed ≠ [] then detailed else parts
  if shown = [] then asSentence letters (orText (normalizeText lead) (normalizeText title))
  else " ".intercalate shown

def related (profile : TokenProfile) (threshold : Rat) (left right : String)
    (leftTopic rightTopic : Option String) : Bool :=
  if topicKey host leftTopic ≠ "" ∧ topicKey host rightTopic ≠ "" then
    sameTopic host leftTopic rightTopic
  else if ((profile.distinctive host left).filter (· ∈ profile.distinctive host right)).length < 2
  then false
  else threshold ≤ profile.jaccard host left right

/-- The relation of `_cluster_notes`. -/
def relatedNotes (profile : TokenProfile) (left right : ArtifactClaim) : Bool :=
  related host profile (5 / 10) left.text right.text left.topic right.topic

def restatesTask (profile : TokenProfile) (tasks : List ArtifactClaim) (note : ArtifactClaim) :
    Bool :=
  note.sourceCandidateIds ≠ [] ∧ tasks.any fun task =>
    note.sourceCandidateIds.all (· ∈ task.sourceCandidateIds) &&
      4 / 10 ≤ profile.jaccard host note.text task.text

section Ledger

variable (ledger : CandidateLedger) (meetingSequences : Int → Bool)

def relatedContext (profile : TokenProfile) (task : ArtifactClaim) : List MeetingCandidate :=
  let cited := (task.sourceCandidateIds.filterMap ledger.byId).filter isContextKind
  let near := ledger.candidates.filter fun candidate =>
    isContextKind candidate &&
      related host profile (3 / 10) task.text candidate.meaning task.topic candidate.topic
  (cited ++ near).foldl (fun found candidate =>
    if candidate.candidateId ∈ found.map (·.candidateId) ∨ normalizeText candidate.meaning = "" then
      found
    else found ++ [candidate]) []

structure Enrichment where
  extras : List String
  sourceIds : List String
  evidence : List Int
deriving DecidableEq

def enrichFrom (task : ArtifactClaim) : List MeetingCandidate → Enrichment → Enrichment
  | [], gathered => gathered
  | candidate :: rest, gathered =>
    let meaning := normalizeText candidate.meaning
    if meaning = "" ∨
        alreadyCovered host meaning (task.text ++ " " ++ " ".intercalate gathered.extras) then
      enrichFrom task rest gathered
    else
      let next : Enrichment :=
        { extras := gathered.extras ++ [meaning]
          sourceIds := appendNew gathered.sourceIds [candidate.candidateId]
          evidence := appendNew gathered.evidence
            (candidate.evidenceSequences.filter meetingSequences) }
      if maxExtra ≤ next.extras.length then next else enrichFrom task rest next

def enrichTask (profile : TokenProfile) (task : ArtifactClaim) : ArtifactClaim :=
  if isShallow host task.title task.body = false then task
  else
    let context := relatedContext host ledger profile task
    if context = [] then
      if task.body = "" then task else { task with body := asSentence letters task.body }
    else
      let gathered := enrichFrom host meetingSequences task context
        ⟨[], task.sourceCandidateIds, task.evidenceSequences⟩
      let body := composeBody host letters task.title task.body gathered.extras
      if body = normalizeText task.body ∧ gathered.sourceIds = task.sourceCandidateIds then task
      else
        { task with
          body := body
          sourceCandidateIds := gathered.sourceIds
          evidenceSequences := gathered.evidence }

end Ledger

def kindLabels : List String := ["action", "requirement", "fact", "rationale", "issue", "idea"]

/-- `_KIND_LABEL_RE.sub("", text)`. -/
def dropKindLabel (cs : List Char) : List Char :=
  let labelled := kindLabels.findSome? fun label => do
    let rest ← Text.dropLetters label.toList cs
    match rest.dropWhile Text.isSpace with
    | ':' :: tail => some (tail.dropWhile Text.isSpace)
    | _ => none
  labelled.getD cs

/-- One line of a note's body, as `_note_lines` shows it. -/
def noteLine (line : String) : Option String :=
  let text :=
    if ['-', ' '].isPrefixOf line.toList then Text.strip (.ofList (line.toList.drop 2))
    else Text.strip line
  let shown := Text.strip (.ofList (dropKindLabel text.toList))
  if shown = "" then none else some (capitalize letters shown)

def noteLines (item : ArtifactClaim) : List String :=
  let body := cleanMultiline item.body
  if body = "" then
    let title := normalizeText item.title
    if title = "" then [] else [title]
  else (Text.splitLines body).filterMap (noteLine letters)

def stem (token : String) : String :=
  let value := host.casefold token
  if isDigits value ∨ value.length ≤ 4 then value
  else .ofList (((value.toList.reverse.dropWhile (· = 's')).reverse).take 6)

def foldedTokens (text : String) : List String :=
  ((contentTokens host text).map (stem host)).eraseDups

def restated (line : String) (previous : List String) : Bool :=
  if alreadyCovered host line (" ".intercalate previous) then true
  else
    let tokens := foldedTokens host line
    if tokens.length < 2 then false
    else previous.any fun prev =>
      let prior := foldedTokens host prev
      (tokens.filter isDigits).all (· ∈ prior) &&
        (6 / 10 : Rat) ≤ ((tokens.filter (· ∈ prior)).length : Rat) / tokens.length

/-- `lines` after a line of a note, `:213` and `:222`. -/
def addLine (lead : String) (lines : List String) (line : String) : List String :=
  if restated host line (lead :: lines) then lines else lines ++ [line]

/-- The sort key of `_cluster_title`. -/
def titleBefore (left right : ArtifactClaim) : Prop :=
  let tokens := fun item : ArtifactClaim => (contentTokens host item.title).length
  let width := fun item : ArtifactClaim => (normalizeText item.title).length
  tokens right < tokens left ∨ tokens right = tokens left ∧ width left ≤ width right

instance : DecidableRel (titleBefore host) := fun _ _ => by unfold titleBefore; infer_instance

/-- `_cluster_title(group, topic)`, for the group `first :: rest`. -/
def clusterTitle (first : ArtifactClaim) (rest : List ArtifactClaim) (topic : Option String) :
    String :=
  match topic.filter (·.length ≤ 80) with
  | some title => title
  | none =>
    let ranked := ((first :: rest).insertionSort (titleBefore host)).head?.getD first
    let title := normalizeText ranked.title
    if title ≠ "" ∧ title.length ≤ 80 then title
    else titleFromMeaning (orText first.body first.title)

/-- `min(item.evidenceSequences or [10**9])`. -/
def ArtifactClaim.firstEvidence (item : ArtifactClaim) : Int :=
  match item.evidenceSequences with
  | [] => 10 ^ 9
  | first :: rest => rest.foldl min first

/-- `_merge_note_group(group)`, for the notes in the order of their evidence. -/
def mergeOrdered (first : ArtifactClaim) (rest : List ArtifactClaim) : ArtifactClaim :=
  let opening := noteLines letters first
  let lead := opening.head?.getD (normalizeText first.title)
  let lines := (opening.drop 1 ++ rest.flatMap (noteLines letters)).foldl (addLine host lead) []
  let topic := ((first :: rest).find? fun item => topicKey host item.topic ≠ "").bind (·.topic)
  { artifactKey := first.artifactKey
    kind := .note
    title := clusterTitle host first rest topic
    body := if lines = [] then lead else "\n".intercalate (lead :: lines.map ("- " ++ ·))
    topic := topic
    sourceCandidateIds := appendNew [] ((first :: rest).flatMap (·.sourceCandidateIds))
    evidenceSequences := appendNew [] ((first :: rest).flatMap (·.evidenceSequences)) }

def mergeGroup (group : List ArtifactClaim) : List ArtifactClaim :=
  match group with
  | [] => []
  | [note] => [note]
  | _ =>
    match (group.take maxCluster).insertionSort fun a b => a.firstEvidence ≤ b.firstEvidence with
    | [] => []
    | first :: rest => [mergeOrdered host letters first rest]

def clusterNotes (profile : TokenProfile) (notes : List ArtifactClaim) : List ArtifactClaim :=
  if notes.length ≤ 1 then notes
  else (Groups.unionGroups (relatedNotes host profile) notes).flatMap (mergeGroup host letters)

/-- `TokenProfile` of a composition. -/
def compositionProfile (ledger : CandidateLedger) (artifacts : List ArtifactClaim) : TokenProfile :=
  .ofTexts host (ledger.candidates.map (·.meaning) ++ artifacts.map (·.text))

def composedTasks (ledger : CandidateLedger) (meetingSequences : Int → Bool)
    (artifacts : List ArtifactClaim) : List ArtifactClaim :=
  (artifacts.filter (·.kind = .task)).map
    (enrichTask host letters ledger meetingSequences (compositionProfile host ledger artifacts))

def distinctNotes (ledger : CandidateLedger) (meetingSequences : Int → Bool)
    (artifacts : List ArtifactClaim) : List ArtifactClaim :=
  (artifacts.filter (·.kind = .note)).filter fun note =>
    !restatesTask host (compositionProfile host ledger artifacts)
      (composedTasks host letters ledger meetingSequences artifacts) note

def composeArtifacts (ledger : CandidateLedger) (meetingSequences : Int → Bool)
    (artifacts : List ArtifactClaim) : List ArtifactClaim :=
  composedTasks host letters ledger meetingSequences artifacts ++
    clusterNotes host letters (compositionProfile host ledger artifacts)
      (distinctNotes host letters ledger meetingSequences artifacts)

/-- What `run_meeting_pipeline` does with the claims between the recovery of actions and the
outline, `pipeline.py:151`. -/
def publishedClaims (ledger : CandidateLedger) (meetingSequences : Int → Bool)
    (discarded : List String) (claims : List ArtifactClaim) : List ArtifactClaim :=
  composeArtifacts host letters ledger meetingSequences
    (recoverUnpublishedNotes host ledger meetingSequences (uniqueTaskClaims host claims) discarded)

end AiBuddy.MeetingPipeline
