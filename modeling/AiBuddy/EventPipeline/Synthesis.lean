import AiBuddy.EventPipeline.Channels
import AiBuddy.EventPipeline.MemoryIdentity

/-!
# Synthesis, validation and repair of the artifacts

`services/conversation/event_pipeline/pipeline.py:521` to `:719` and `:851` to `:930`. The events
are one list, and a channel is a list of positions in it: the source hands the same objects from
pass to pass. What the synthesizers and the validators answer may be anything, as a function of
how often they were asked. Of an artifact the model keeps what these passes read.
-/

namespace AiBuddy.EventPipeline

open Conversation

variable (host : Host)

/-- `coverageStatus` of `_artifact_metadata`. -/
inductive ArtifactKind where
  | task
  | note
  deriving DecidableEq

/-- `ExtractedTask` with its `changes`, or `ExtractedNote` with its `debug`. -/
structure Artifact where
  kind : ArtifactKind
  title : String
  fingerprint : String
  eventId : String
  threadId : String
  sourceSemanticUnitIds : List String
  actionVerb : String
  canonicalActionObject : String
  actionObject : String
  memoryRelation : Option MemoryRelation := none
  deriving DecidableEq

structure Draft where
  title : String
  fingerprint : String

/-- What `validate_artifact` or `LLMArtifactValidator.review` says of an artifact. One that is
kept may be rewritten. -/
inductive Verdict where
  | reject (reasons : List String)
  | keep (title : String)

/-- The answers that a run gets. `review` is there only for a run that polishes, and a review
may abstain. -/
structure Answers where
  draftTask : Nat → Option Draft
  draftNote : Nat → Option Draft
  check : Nat → Verdict
  review : Option (Nat → Option Verdict) := none

/-- An artifact with `_artifact_metadata(event, thread, kind)`, `synthesis.py:318`. -/
def artifactOf (kind : ArtifactKind) (event : AtomicEvent) (draft : Draft) : Artifact :=
  let field := fun (read : ActionSignal → Option String) (fallback : Option String) =>
    match event.actionSignal with
    | some signal => (read signal).getD ""
    | none => fallback.getD ""
  { kind
    title := draft.title
    fingerprint := draft.fingerprint
    eventId := event.eventId
    threadId := event.threadId
    sourceSemanticUnitIds := [event.eventId]
    actionVerb := field (·.verb) none
    canonicalActionObject := field (·.canonicalActionObject) event.object
    actionObject := field (·.object) event.object }

/-- `artifact.fingerprint or artifact.title`. -/
def Artifact.key (item : Artifact) : String := orText item.fingerprint item.title

structure Run where
  events : List AtomicEvent
  taskCalls : Nat := 0
  noteCalls : Nat := 0
  checks : Nat := 0
  reviews : Nat := 0

def Run.change (run : Run) (i : Nat) (change : AtomicEvent → AtomicEvent) : Run :=
  { run with events := run.events.modify i change }

/-- The action and the memory channel as positions, `split_action_and_memory`,
`channels.py:42`. -/
structure Channels where
  actions : List Nat
  memory : List Nat

/-- What `split_action_and_memory` does to one event. -/
def splitEvent (event : AtomicEvent) : AtomicEvent :=
  if event.kind.isNonPublishable then
    { event with
      disposition := some .intentionallyNonPublishable
      dispositionReason := orText event.dispositionReason "noise" }
  else if eventIsActionable event ∧ actionObjectGrounded host event = false ∧
      "missing_object" ∉ event.uncertainty then
    { event with uncertainty := event.uncertainty ++ ["missing_object"] }
  else event

def positions (takes : AtomicEvent → Bool) (events : List AtomicEvent) : List Nat :=
  (List.range events.length).filter fun i => events[i]?.any takes

/-- `channels.py:42`. -/
def splitActionAndMemory (events : List AtomicEvent) : List AtomicEvent × Channels :=
  (events.map (splitEvent host),
    { actions := positions (fun e => !e.kind.isNonPublishable && eventIsActionable e) events
      memory := positions (fun e => !e.kind.isNonPublishable && eventIsMemoryCandidate e) events })

/-- `text.removeprefix("the ").strip()`. -/
def withoutThe (text : String) : String :=
  Text.strip (if "the ".toList.isPrefixOf text.toList then .ofList (text.toList.drop 4) else text)

def taskIdentityKey (event : AtomicEvent) (item : Artifact) : String :=
  let thread := casefoldText host event.threadId
  let (obj, verb) := match event.actionSignal with
    | some signal =>
      (casefoldText host (orText (signal.canonicalActionObject.getD "")
        (orText (signal.object.getD "") event.objectText)),
        casefoldText host (signal.verb.getD ""))
    | none => (casefoldText host (orText event.objectText item.title), "")
  let obj := withoutThe obj
  if obj = "" then "" else thread ++ "|" ++ verb ++ "|" ++ obj

structure TaskLoop where
  run : Run
  tasks : List Artifact := []
  seen : List String := []
  seenObjects : List String := []

def TaskLoop.asked (loop : TaskLoop) : TaskLoop :=
  { loop with run := { loop.run with taskCalls := loop.run.taskCalls + 1 } }

def TaskLoop.dispose (loop : TaskLoop) (i : Nat) (disposition : ActionDisposition)
    (reason : String) : TaskLoop :=
  { loop with run := loop.run.change i (setActionDisposition · disposition reason) }

variable (answers : Answers)

def TaskLoop.step (loop : TaskLoop) (i : Nat) : TaskLoop :=
  match loop.run.events[i]? with
  | none => loop
  | some event =>
    if event.kind = .noise then loop.dispose i .intentionallyNonpublishable "noise"
    else
      match answers.draftTask loop.run.taskCalls with
      | none =>
        let (disposition, reason) := actionSynthesisAbstainDisposition host event
        loop.asked.dispose i disposition reason
      | some draft =>
        let item := artifactOf .task event draft
        let objectKey := taskIdentityKey host event item
        if objectKey ≠ "" ∧ objectKey ∈ loop.seenObjects then
          loop.asked.dispose i .duplicate "duplicate_action_identity"
        else if item.key ∈ loop.seen then
          loop.asked.dispose i .duplicate "duplicate_task_fingerprint"
        else
          { loop.asked.dispose i .publishedTask "published" with
            tasks := loop.tasks ++ [item]
            seen := item.key :: loop.seen
            seenObjects :=
              if objectKey = "" then loop.seenObjects else objectKey :: loop.seenObjects }

def synthesizeTasks (run : Run) (actions : List Nat) : TaskLoop :=
  actions.foldl (TaskLoop.step host answers) { run }

structure NoteLoop where
  run : Run
  notes : List Artifact := []
  seen : List String := []
  published : List Nat := []

def NoteLoop.asked (loop : NoteLoop) : NoteLoop :=
  { loop with run := { loop.run with noteCalls := loop.run.noteCalls + 1 } }

def NoteLoop.change (loop : NoteLoop) (i : Nat) (change : AtomicEvent → AtomicEvent) :
    NoteLoop :=
  { loop with run := loop.run.change i change }

def setLowValue (event : AtomicEvent) : AtomicEvent :=
  let marked := setMemoryDisposition event .lowValue "low_value_memory"
  if event.disposition.any EventDisposition.isSettled then marked
  else
    { marked with
      disposition := some .intentionallyNonPublishable
      dispositionReason := orText event.dispositionReason "low_value_memory" }

/-- An event that is not publishable, `:576` to `:600`. -/
def setNotPublishable (event : AtomicEvent) : AtomicEvent :=
  if memoryImportance event = "LOW" ∨
      event.memorySignal.any fun signal => !signal.isMemoryWorthy then
    setLowValue event
  else if event.disposition = none then setLowValue event
  else event

/-- `:602` to `:606`. -/
def setDuplicateIdentity (event : AtomicEvent) : AtomicEvent :=
  setMemoryDisposition
    { event with
      disposition := if event.disposition = some .task then event.disposition else some .duplicate
      dispositionReason := "duplicate_memory_identity" }
    .duplicate "duplicate_memory_identity"

/-- `:608` to `:620`. -/
def setAbstained (event : AtomicEvent) : AtomicEvent :=
  let marked := setMemoryDisposition event .unsupported "note_synthesis_abstained"
  match event.disposition with
  | none | some .note =>
    { marked with
      disposition := some .intentionallyNonPublishable
      dispositionReason := orText event.dispositionReason "note_synthesis_abstained" }
  | _ => marked

/-- `:622` to `:626`. -/
def setDuplicateNote (event : AtomicEvent) : AtomicEvent :=
  let marked := setMemoryDisposition event .duplicate "duplicate_note_fingerprint"
  match event.disposition with
  | some .task | some .intentionallyNonPublishable => marked
  | _ => { marked with disposition := some .duplicate }

/-- `:634` to `:637`: the prior event that a later note takes the place of. -/
def setSuperseded (event : AtomicEvent) : AtomicEvent :=
  let marked := setMemoryDisposition event .superseded "superseded_by_later_state"
  if event.disposition = some .task then marked
  else { marked with disposition := some .superseded }

/-- `:638` to `:646`, for an event that had `prior` when its turn came. -/
def setPublishedNote (prior : Option EventDisposition) (relation : Option MemoryRelation)
    (event : AtomicEvent) : AtomicEvent :=
  let event :=
    if prior = some .task then
      { event with dispositionReason := orText event.dispositionReason "task_and_note" }
    else
      { event with
        disposition := some .note
        dispositionReason :=
          match relation with
          | some .supersede => "supersede_prior_memory"
          | some .update => "status_update"
          | _ => event.dispositionReason }
  setMemoryDisposition event .publishedNote ((relation.map MemoryRelation.text).getD "published")

def NoteLoop.step (loop : NoteLoop) (i : Nat) : NoteLoop :=
  match loop.run.events[i]? with
  | none => loop
  | some event =>
    if eventIsPublishableMemory event = false then loop.change i setNotPublishable
    else
      let published := loop.published.filterMap fun j => (loop.run.events[j]?).map (j, ·)
      let related := findMemoryRelation host event published
      let relation := related.map (·.1)
      if relation = some .duplicate then loop.change i setDuplicateIdentity
      else
        match answers.draftNote loop.run.noteCalls with
        | none => loop.asked.change i setAbstained
        | some draft =>
          let item := { artifactOf .note event draft with memoryRelation := relation }
          if item.key ∈ loop.seen ∧ relation = none then loop.asked.change i setDuplicateNote
          else
            let known := if relation ∈ [some .update, some .supersede, some .distinct] then
              event.eventId else item.key
            let superseding := match related with
              | some (.supersede, j) => loop.asked.change j setSuperseded
              | _ => loop.asked
            { superseding.change i (setPublishedNote event.disposition relation) with
              notes := loop.notes ++ [item]
              seen := known :: loop.seen
              published := loop.published ++ [i] }

def synthesizeNotes (run : Run) (memory : List Nat) : NoteLoop :=
  memory.foldl (NoteLoop.step host answers) { run }

/-- One event of `_mark_events(events, item, EventDisposition.REJECTED, reason)`. -/
def markRejected (item : Artifact) (reason : String) (event : AtomicEvent) : AtomicEvent :=
  if event.eventId ∉ item.sourceSemanticUnitIds then event
  else if item.kind = .note ∧ event.disposition = some .task then
    { event with
      memoryDisposition := some .rejectedWithReason
      memoryDispositionReason := reason }
  else
    let rejected := { event with disposition := some .rejected, dispositionReason := reason }
    let rejected :=
      if event.memoryDisposition = none then
        { rejected with
          memoryDisposition := some .rejectedWithReason
          memoryDispositionReason := reason }
      else rejected
    if eventIsActionable event then setActionDisposition rejected .validationRejected reason
    else rejected

/-- What becomes of an artifact in `_validate_artifacts`. -/
inductive Outcome where
  | rejected (reason : String)
  | kept (item : Artifact)

/-- `result.reasons[0] if result.reasons else fallback`. -/
def firstReason (reasons : List String) (fallback : String) : String := reasons.headD fallback

/-- What the validators say of the next artifact, `:661` to `:672`. -/
def Run.outcome (run : Run) (item : Artifact) : Outcome :=
  match answers.check run.checks with
  | .reject reasons => .rejected (firstReason reasons "validation_rejected")
  | .keep title =>
    match answers.review.bind (· run.reviews) with
    | some (.reject reasons) => .rejected (firstReason reasons "llm_validation_rejected")
    | some (.keep rewritten) => .kept { item with title := rewritten }
    | none => .kept { item with title }

def Run.asked (run : Run) : Run :=
  { run with
    checks := run.checks + 1
    reviews :=
      match answers.check run.checks with
      | .reject _ => run.reviews
      | .keep _ => if answers.review.isSome then run.reviews + 1 else run.reviews }

/-- One artifact of `_validate_artifacts`, with those kept before it. -/
def validateOne (state : Run × List Artifact) (item : Artifact) : Run × List Artifact :=
  let run := state.1.asked answers
  match state.1.outcome answers item with
  | .rejected reason =>
    ({ run with events := run.events.map (markRejected item reason) }, state.2)
  | .kept item => (run, state.2 ++ [item])

/-- One loop of `_validate_artifacts` or `:674`. -/
def validateAll (run : Run) (items : List Artifact) : Run × List Artifact :=
  items.foldl (validateOne answers) (run, [])

def validateArtifacts (run : Run) (tasks notes : List Artifact) :
    Run × List Artifact × List Artifact :=
  let (run, keptTasks) := validateAll answers run tasks
  let (run, keptNotes) := validateAll answers run notes
  (run, keptTasks, keptNotes)

def dedupeBy (key : Artifact → String) (items : List Artifact) : List Artifact :=
  (items.foldl (fun (state : List String × List Artifact) item =>
    if key item ∈ state.1 then state else (key item :: state.1, state.2 ++ [item])) ([], [])).2

def dedupeTasks (items : List Artifact) : List Artifact :=
  dedupeBy (fun item =>
    let verb := casefoldText host item.actionVerb
    let obj := withoutThe (casefoldText host (orText item.canonicalActionObject item.actionObject))
    if verb ≠ "" ∧ obj ≠ "" then casefoldText host item.threadId ++ "|" ++ verb ++ "|" ++ obj
    else item.key) items

def dedupeNotes (items : List Artifact) : List Artifact :=
  dedupeBy (fun item =>
    if item.memoryRelation ∈ [some .update, some .supersede, some .distinct] then
      orText item.eventId item.key
    else item.key) items

end AiBuddy.EventPipeline
