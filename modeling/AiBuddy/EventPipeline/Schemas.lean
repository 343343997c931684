import AiBuddy.EventPipeline.TextUtil

/-!
# Records of the event pipeline

`services/conversation/event_pipeline/schemas.py`. A missing text is the empty text where the
source treats the two alike.
-/

namespace AiBuddy.EventPipeline

open Conversation

inductive EventKind where
  | request
  | commitment
  | assignment
  | decision
  | proposal
  | requirement
  | issue
  | state
  | result
  | fact
  | followUp
  | deadline
  | completion
  | cancellation
  | contradiction
  | constraint
  | importantContext
  | openQuestion
  | noise
  deriving DecidableEq

def EventKind.text : EventKind → String
  | .request => "REQUEST"
  | .commitment => "COMMITMENT"
  | .assignment => "ASSIGNMENT"
  | .decision => "DECISION"
  | .proposal => "PROPOSAL"
  | .requirement => "REQUIREMENT"
  | .issue => "ISSUE"
  | .state => "STATE"
  | .result => "RESULT"
  | .fact => "FACT"
  | .followUp => "FOLLOW_UP"
  | .deadline => "DEADLINE"
  | .completion => "COMPLETION"
  | .cancellation => "CANCELLATION"
  | .contradiction => "CONTRADICTION"
  | .constraint => "CONSTRAINT"
  | .importantContext => "IMPORTANT_CONTEXT"
  | .openQuestion => "OPEN_QUESTION"
  | .noise => "NOISE"

/-- `ACTION_EVENT_KINDS`. -/
def EventKind.isAction : EventKind → Bool
  | .request | .commitment | .assignment | .followUp | .deadline | .completion
  | .cancellation => true
  | _ => false

/-- `MEMORY_EVENT_KINDS`, and `MEMORY_KINDS`, `memory_identity.py:16`. -/
def EventKind.isMemory : EventKind → Bool
  | .decision | .requirement | .issue | .state | .result | .fact | .proposal | .constraint
  | .importantContext | .contradiction | .openQuestion => true
  | _ => false

inductive EventDisposition where
  | task
  | note
  | intentionallyNonPublishable
  | superseded
  | duplicate
  | rejected
  deriving DecidableEq

inductive MemoryDisposition where
  | publishedNote
  | duplicate
  | superseded
  | lowValue
  | unsupported
  | relatedContextOnly
  | rejectedWithReason
  deriving DecidableEq

inductive ActionDisposition where
  | publishedTask
  | duplicate
  | superseded
  | unsupported
  | unresolvedObject
  | ambiguous
  | intentionallyNonpublishable
  | validationRejected
  deriving DecidableEq

def abstainUnresolvedObject : String := "ABSTAIN_UNRESOLVED_OBJECT"

def genericActionObjects : List String :=
  ["it", "this", "that", "issue", "problem", "task", "work", "thing", "pending", "item", "stuff"]

def deicticOrTime : List String :=
  ["tomorrow", "today", "yesterday", "later", "soon", "monday", "tuesday", "wednesday", "thursday",
    "friday", "kal", "aaj"]

def actionPronouns : List String :=
  ["it", "this", "that", "them", "these", "those", "usko", "uska", "uski", "iski", "isko", "yeh",
    "woh", "unhe", "usse"]

structure MicroBlock where
  microBlockId : String
  sequenceIds : List Int := []
  sourceIds : List String := []
  text : String

structure LocalTopic where
  topicId : String
  sequenceIds : List Int := []

structure ActionSignal where
  isActionable : Bool := false
  role : Option String := none
  actionStrength : Option String := none
  verb : Option String := none
  object : Option String := none
  rawActionObject : Option String := none
  canonicalActionObject : Option String := none
  objectGroundingType : Option String := none
  actor : Option String := none
  deadline : Option String := none
  artifactStatus : Option String := none
  deriving DecidableEq

structure MemorySignal where
  isMemoryWorthy : Bool := false
  importance : Option String := none
  reason : Option String := none
  deriving DecidableEq

structure FieldEvidence where
  actionVerb : List EvidenceSpan := []
  actionObject : List EvidenceSpan := []
  actor : List EvidenceSpan := []
  deadline : List EvidenceSpan := []
  deriving DecidableEq

structure AtomicEvent where
  eventId : String
  topicId : String := ""
  kind : EventKind
  meaning : String
  actor : Option String := none
  object : Option String := none
  timeExpression : Option String := none
  entities : List String := []
  uncertainty : List String := []
  evidence : List EvidenceSpan := []
  microBlockIds : List String := []
  sourceIds : List String := []
  sequenceIds : List Int := []
  embedding : List Rat := []
  threadId : String := ""
  disposition : Option EventDisposition := none
  dispositionReason : String := ""
  memoryDisposition : Option MemoryDisposition := none
  memoryDispositionReason : String := ""
  actionDisposition : Option ActionDisposition := none
  actionDispositionReason : String := ""
  conversationId : String := ""
  actionSignal : Option ActionSignal := none
  memorySignal : Option MemorySignal := none
  fieldEvidence : Option FieldEvidence := none
  deriving DecidableEq

def AtomicEvent.objectText (event : AtomicEvent) : String := event.object.getD ""

inductive ThreadRelation where
  | sameThread
  | updates
  | supports
  | contradicts
  | completes
  | cancels
  | supersedes
  | relatedButDistinct
  | unrelated
  | relatedTo
  deriving DecidableEq

structure ThreadLink where
  fromEventId : String
  toEventId : String
  relation : ThreadRelation
  score : Rat
  crossWindow : Bool
  deriving DecidableEq

structure GlobalThread where
  threadId : String
  label : String
  eventIds : List String
  entities : List String
  latestState : String
  sequenceStart : Int
  sequenceEnd : Int
  embedding : List Rat
  deriving DecidableEq

end AiBuddy.EventPipeline
