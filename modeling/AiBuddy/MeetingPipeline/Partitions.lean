import AiBuddy.MeetingPipeline.Harness
import AiBuddy.MeetingPipeline.Schemas
import AiBuddy.Misc.Packing

/-!
# Partitions of the candidates of a meeting

`partition_candidates` of `services/conversation/meeting_pipeline/consolidator.py`: the candidates
are grouped by topic, and whole groups are packed into what one call of the consolidator may get.
-/

namespace AiBuddy.MeetingPipeline

open EventPipeline

structure CandidatePayload where
  candidateId : String
  kind : CandidateKind
  topic : Option String
  meaning : String
  evidenceSequences : List Int
  owner : Option String
  dueDate : Option String
  sourceWindowIndex : Int
deriving DecidableEq

def MeetingCandidate.payload (item : MeetingCandidate) : CandidatePayload where
  candidateId := item.candidateId
  kind := item.kind
  topic := item.topic
  meaning := item.meaning
  evidenceSequences := item.evidenceSequences
  owner := item.owner
  dueDate := item.dueDate
  sourceWindowIndex := item.sourceWindowIndex

/-- The payload that `_payload_tokens` estimates. -/
structure PartitionPayload where
  candidates : List CandidatePayload
  citedTranscript : List (Int × String)
deriving DecidableEq

def citedLines (sequenceText : Int → Option String) (candidates : List MeetingCandidate) :
    List (Int × String) :=
  let cited := (candidates.flatMap (·.evidenceSequences)).eraseDups.insertionSort (· ≤ ·)
  cited.filterMap fun sequence => (sequenceText sequence).map (sequence, ·)

/-- What `partition_candidates` packs under; `estimate` is `estimate_tokens` of the dumped
payload. -/
structure PartitionLimits where
  estimate : PartitionPayload → Nat
  sequenceText : Int → Option String
  budgetTokens : Int
  /-- `max_candidates or len(ordered) or 1`. -/
  limit : Int

namespace PartitionLimits

variable (limits : PartitionLimits)

def payloadTokens (candidates : List MeetingCandidate) : Nat :=
  limits.estimate ⟨candidates.map (·.payload), citedLines limits.sequenceText candidates⟩

def isOver (items : List MeetingCandidate) : Bool :=
  limits.limit < items.length || limits.budgetTokens < limits.payloadTokens items

end PartitionLimits

/-- `max_candidates or len(ordered) or 1`. -/
def candidateLimit (maxCandidates : Option Int) (ordered : List MeetingCandidate) : Int :=
  let size : Int := if ordered.length = 0 then 1 else ordered.length
  match maxCandidates with
  | some most => if most = 0 then size else most
  | none => size

/-- One entry of `groups` with its entry of `labels`. -/
structure TopicGroup where
  label : Option String
  members : List MeetingCandidate
deriving DecidableEq

variable (host : Host)

/-- The group that takes the candidate, `:325`. -/
def slotOf (groups : List TopicGroup) (candidate : MeetingCandidate) : Option Nat :=
  if topicKey host candidate.topic ≠ "" then
    groups.findIdx? fun group => sameTopic host group.label candidate.topic
  else
    -- A candidate without a topic follows the last one of its window that has none either.
    match groups.getLast? with
    | some last =>
      if topicKey host last.label = "" ∧
          last.members.getLast?.map (·.sourceWindowIndex) = some candidate.sourceWindowIndex then
        some (groups.length - 1)
      else none
    | none => none

def TopicGroup.add (candidate : MeetingCandidate) (group : TopicGroup) : TopicGroup :=
  { group with members := group.members ++ [candidate] }

/-- The body of the loop over the candidates, `:323`. -/
def groupCandidate (groups : List TopicGroup) (candidate : MeetingCandidate) : List TopicGroup :=
  match slotOf host groups candidate with
  | some slot => groups.modify slot (·.add candidate)
  | none => groups ++ [⟨candidate.topic, [candidate]⟩]

/-- `groups` after the loop, `:321`. -/
def topicGroups (candidates : List MeetingCandidate) : List TopicGroup :=
  candidates.foldl (groupCandidate host) []

def splitGroup (isOver : List MeetingCandidate → Bool) (group : List MeetingCandidate) :
    List (List MeetingCandidate) :=
  Packing.split isOver group

def piecesOf (isOver : List MeetingCandidate → Bool) (group : TopicGroup) :
    List (List MeetingCandidate) :=
  if isOver group.members then splitGroup isOver group.members else [group.members]

def partitionCandidates (estimate : PartitionPayload → Nat) (candidates : List MeetingCandidate)
    (sequenceText : Int → Option String) (budgetTokens : Int) (maxCandidates : Option Int) :
    List (List MeetingCandidate) :=
  let isOver := PartitionLimits.isOver
    ⟨estimate, sequenceText, budgetTokens, candidateLimit maxCandidates candidates⟩
  if isOver candidates then
    let partitions :=
      Packing.packFrom isOver [] ((topicGroups host candidates).flatMap (piecesOf isOver))
    if partitions.isEmpty then [candidates] else partitions
  else [candidates]

end AiBuddy.MeetingPipeline
