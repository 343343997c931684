import Mathlib.Data.List.Nodup

/-!
# Schemas of the meeting pipeline

`services/conversation/meeting_pipeline/schemas.py` and `ledger.py`: candidates, the claims made
from them, what the verifier and the repair prompt answer, and the ledger of candidates.
-/

namespace AiBuddy.MeetingPipeline

inductive CandidateKind
  | action | requirement | decision | fact | rationale | issue | idea | question
deriving DecidableEq

inductive VerifierVerdict
  | supported | partiallySupported | unsupported
deriving DecidableEq

/-- The values of `ArtifactClaim.kind`. -/
inductive ArtifactKind
  | task | note
deriving DecidableEq

structure TranscriptTurn where
  sequenceId : Int
  speaker : Option String := none
  rawText : String := ""
deriving DecidableEq

structure ExtractionWindow where
  windowId : String
  windowIndex : Nat
  sequenceStart : Int
  sequenceEnd : Int
  sequenceIds : List Int := []
  ownedSequenceIds : List Int := []
  overlapSequenceIds : List Int := []
  text : String := ""
  tokenCount : Nat := 0
deriving DecidableEq

structure MeetingCandidate where
  candidateId : String
  kind : CandidateKind := .fact
  meaning : String
  evidenceSequences : List Int := []
  owner : Option String := none
  dueDate : Option String := none
  topic : Option String := none
  sourceWindowId : String := ""
  sourceWindowIndex : Int := 0
deriving DecidableEq

structure ArtifactClaim where
  artifactKey : String
  kind : ArtifactKind
  title : String
  body : String := ""
  owner : Option String := none
  dueDate : Option String := none
  priority : Option String := none
  acceptanceCriteria : String := ""
  topic : Option String := none
  sourceCandidateIds : List String := []
  evidenceSequences : List Int := []
deriving DecidableEq

structure FieldSupport where
  title : Option Bool := none
  description : Option Bool := none
  owner : Option Bool := none
  dueDate : Option Bool := none
deriving DecidableEq

structure VerifierFieldSupport where
  title : Bool
  description : Bool
  owner : Bool
  dueDate : Bool
deriving DecidableEq

structure VerifierItem where
  artifactKey : String
  verdict : VerifierVerdict
  unsupportedFields : List String := []
  fieldSupport : VerifierFieldSupport
  reason : String := ""
deriving DecidableEq

structure MeetingArtifactRepairResponse where
  title : String
  body : String := ""
  acceptanceCriteria : Option String := none
  owner : Option String := none
  dueDate : Option String := none
deriving DecidableEq

structure VerifiedArtifact where
  kind : ArtifactKind
  title : String
  body : String := ""
  owner : Option String := none
  dueDate : Option String := none
  priority : Option String := none
  acceptanceCriteria : String := ""
  topic : Option String := none
  sourceCandidateIds : List String := []
  evidenceSequences : List Int := []
  verdict : VerifierVerdict := .unsupported
  unsupportedFields : List String := []
  fieldSupport : FieldSupport := {}
  reason : String := ""
  repaired : Bool := false
  artifactKey : String := ""
deriving DecidableEq

/-- `CandidateLedger`. `_append` lets no candidate in without an id or with the id of
another one. -/
structure CandidateLedger where
  candidates : List MeetingCandidate
  named : ∀ candidate ∈ candidates, candidate.candidateId ≠ ""
  distinct : (candidates.map (·.candidateId)).Nodup

namespace CandidateLedger

/-- The ledger of `__init__`. -/
def empty : CandidateLedger := ⟨[], by simp, by simp⟩

variable (ledger : CandidateLedger)

def append (candidate : MeetingCandidate) : CandidateLedger :=
  if h : candidate.candidateId = "" ∨
      candidate.candidateId ∈ ledger.candidates.map (·.candidateId) then ledger
  else
    ⟨ledger.candidates ++ [candidate], by
      intro item hitem
      rcases List.mem_append.mp hitem with hold | hnew
      · exact ledger.named item hold
      · rw [List.mem_singleton.mp hnew]
        exact fun heq => h (.inl heq), by
      rw [List.map_append, List.nodup_append]
      refine ⟨ledger.distinct, by simp, ?_⟩
      intro id hid other hother heq
      rw [List.map_singleton, List.mem_singleton] at hother
      exact h (.inr (hother ▸ heq ▸ hid))⟩

/-- `replace_window(window, candidates)`, for the window's id. -/
def replaceWindow (windowId : String) (candidates : List MeetingCandidate) : CandidateLedger :=
  candidates.foldl append
    ⟨ledger.candidates.filter (·.sourceWindowId ≠ windowId),
      fun item hitem => ledger.named item (List.mem_of_mem_filter hitem),
      ledger.distinct.sublist (List.filter_sublist.map _)⟩

def byId (candidateId : String) : Option MeetingCandidate :=
  ledger.candidates.find? (·.candidateId = candidateId)

def evidenceUnion (candidateIds : List String) : List Int :=
  ((candidateIds.filterMap ledger.byId).flatMap (·.evidenceSequences)).eraseDups

end CandidateLedger

end AiBuddy.MeetingPipeline
