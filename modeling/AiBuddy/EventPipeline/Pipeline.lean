import AiBuddy.EventPipeline.Coverage

/-!
# The pipeline from the merged events to the publication gate

`services/conversation/event_pipeline/pipeline.py:263` to `:389` with `_repair` (`:690`), and
`publish_gate.py`. What runs before (cleaning, blocks, topics, extraction, the event store and
thread linking) gives the input. The store keys its events by their ids, so ids are distinct.
-/

namespace AiBuddy.EventPipeline

open Conversation

variable (host : Host) (answers : Answers)

def positionsOf (keeps : AtomicEvent → Bool) (run : Run) : List Nat := positions keeps run.events

def repairNotes (run : Run) (notes : List Artifact) : Run × List Artifact :=
  match positionsOf isUnpublishedMemory run with
  | [] => (run, notes)
  | missing =>
    let loop := synthesizeNotes host answers run missing
    let (run, extra) := validateAll answers loop.run loop.notes
    (run, dedupeNotes (notes ++ extra))

def repairTasks (run : Run) (tasks : List Artifact) : Run × List Artifact :=
  match positionsOf isUnpublishedAction run with
  | [] => (run, tasks)
  | missing =>
    let loop := synthesizeTasks host answers run missing
    let (run, extra) := validateAll answers loop.run loop.tasks
    (run, dedupeTasks host (tasks ++ extra))

/-- `_repair(..)`, with as many rounds as are left. -/
def repair : Nat → Run → List Artifact → List Artifact → Run × List Artifact × List Artifact
  | 0, run, tasks, notes => (run, tasks, notes)
  | rounds + 1, run, tasks, notes =>
    let (run, notes) := repairNotes host answers run notes
    let (run, tasks) := repairTasks host answers run tasks
    if run.events.any isUnpublishedMemory then repair rounds run tasks notes
    else (run, tasks, notes)

/-- What a pipeline works on from `split_action_and_memory` on. `checkpointEvents` are the events
of earlier windows, and `reviewed` the semantic records that the completeness reviews made of the
models' answers. -/
structure PipelineInput where
  events : List AtomicEvent
  distinct : (events.map (·.eventId)).Nodup
  blocks : List MicroBlock
  checkpointEvents : List AtomicEvent := []
  reviewed : List CoverageSemanticUnitRecord := []
  stages : List String
  asyncLifecycleErrors : Nat := 0
  coverageLedgerEnabled : Bool := true
  maxRepairRounds : Nat := 1

structure EventPipelineResult where
  tasks : List Artifact
  notes : List Artifact
  events : List AtomicEvent
  coverage : Option CoverageLedger
  stages : List String
  asyncLifecycleErrors : Nat

def allBlocks (blocks : List MicroBlock) (checkpointEvents : List AtomicEvent) :
    List MicroBlock :=
  let named := checkpointEvents.flatMap fun event => event.microBlockIds.map (event, ·)
  let add := fun (state : List String × List MicroBlock) (pair : AtomicEvent × String) =>
    if pair.2 ∈ state.1 then state
    else (pair.2 :: state.1, state.2 ++
      [{ microBlockId := pair.2
         sequenceIds := pair.1.sequenceIds
         sourceIds := pair.1.sourceIds
         text := pair.1.meaning }])
  (named.foldl add (blocks.map (·.microBlockId), [])).2 ++ blocks

/-- The synthesis, `pipeline.py:263` to `:272`: the run with the tasks and the notes that were
synthesized. -/
def synthesize (input : PipelineInput) : Run × List Artifact × List Artifact :=
  let (events, channels) := splitActionAndMemory host input.events
  let tasks := synthesizeTasks host answers { events } channels.actions
  let notes := synthesizeNotes host answers tasks.run channels.memory
  (notes.run, tasks.tasks, notes.notes)

/-- Marks the events that are left over, `pipeline.py:314`. -/
def markUnsupportedMemory (event : AtomicEvent) : AtomicEvent :=
  if isUnpublishedMemory event then setMemoryDisposition event .unsupported "no_publishable_note"
  else event

/-- Marks the events that are left over, `pipeline.py:320`. -/
def markUnsupportedAction (event : AtomicEvent) : AtomicEvent :=
  if isUnpublishedAction event then setActionDisposition event .unsupported "no_publishable_task"
  else event

structure Covered where
  ledger : CoverageLedger
  events : List AtomicEvent
  tasks : List Artifact
  notes : List Artifact

/-- The coverage stage, `pipeline.py:284` to `:352`. -/
def coverageStage (input : PipelineInput) (run : Run) (tasks notes : List Artifact) : Covered :=
  let (ledger, events) := buildCoverageLedger host
    (allBlocks input.blocks input.checkpointEvents) run.events tasks notes
  let ledger := accountExplicitNoEvents ledger events
  let (run, tasks, notes) :=
    repair host answers input.maxRepairRounds { run with events } tasks notes
  let ledger := { ledger with tasksGenerated := tasks.length, notesGenerated := notes.length }
  let (ledger, events) := applyMemoryCoverage ledger (run.events.map markUnsupportedMemory)
  let (ledger, events) := applyActionCoverage ledger (events.map markUnsupportedAction)
  let ledger := applySemanticCoverage host ledger (semanticRecords input.reviewed events) events
  let leftover := events.any isUnpublishedMemory
  let leftoverActions := events.any isUnpublishedAction
  { ledger := { ledger with
      hardFailure := 0 < ledger.unaccountedBlocks || leftover || leftoverActions ||
        ledger.memoryCoverageFailure || ledger.actionCoverageFailure ||
        ledger.semanticCoverageFailure
      suspicious := flag "unpublished_action_events" leftoverActions
        (flag "unpublished_memory_events" leftover ledger.suspicious) }
    events, tasks, notes }

/-- `_run_event_pipeline_body`, from `split_action_and_memory` to its result. -/
def runEventPipeline (input : PipelineInput) : EventPipelineResult :=
  let (run, tasks, notes) := synthesize host answers input
  let (run, tasks, notes) := validateArtifacts answers run tasks notes
  if input.coverageLedgerEnabled then
    let covered := coverageStage host answers input run tasks notes
    { tasks := covered.tasks
      notes := covered.notes
      events := covered.events
      coverage := some covered.ledger
      stages := input.stages
      asyncLifecycleErrors := input.asyncLifecycleErrors }
  else
    { tasks, notes
      events := run.events
      coverage := none
      stages := input.stages
      asyncLifecycleErrors := input.asyncLifecycleErrors }

def requiredStages : List String :=
  ["cleaning", "micro_blocks", "topics", "event_extraction", "thread_linking", "task_synthesis",
    "note_synthesis", "evidence_validation"]

/-- `publication_ready(result)`, in a process that has the ledger on or
off. -/
def publicationReady (coverageLedgerEnabled : Bool) (result : EventPipelineResult) :
    Bool × String :=
  let missing := requiredStages.filter (· ∉ result.stages)
  if 0 < result.asyncLifecycleErrors then (false, "async_lifecycle_error")
  else if missing ≠ [] then (false, "incomplete_stages:" ++ ",".intercalate missing)
  else if coverageLedgerEnabled then
    match result.coverage with
    | none => (false, "coverage_ledger_missing")
    | some coverage =>
      if 0 < coverage.unaccountedBlocks then (false, "unaccounted_blocks")
      else if coverage.memoryCoverageFailure then (false, "memory_coverage_failure")
      else if coverage.actionCoverageFailure then (false, "action_coverage_failure")
      else if coverage.semanticCoverageFailure then (false, "semantic_coverage_failure")
      else if coverage.hardFailure then (false, "coverage_hard_failure")
      else (true, "")
  else (true, "")

end AiBuddy.EventPipeline
