import AiBuddy.EventPipeline.Synthesis
import AiBuddy.Misc.Counting

/-!
# The coverage ledger

`services/conversation/event_pipeline/coverage.py`, with `_account_explicit_no_events`
(`pipeline.py:730`) and `bootstrap_semantic_records` (`completeness.py:392`). The counters that a
disposition names are functions of the disposition. What only a report reads (ratios, log lines,
totals of the cleaning, the number of other events and of updates) is left out.
-/

namespace AiBuddy.EventPipeline

open Conversation Counting

variable (host : Host)

inductive BlockDisposition where
  | producedEvents
  | noEvent
  deriving DecidableEq

inductive SemanticUnitDisposition where
  | eventCreated
  | mergedWithEvent
  | lowValue
  | noise
  | unsupported
  | duplicate
  | ambiguous
  deriving DecidableEq

structure CoverageBlockRecord where
  microBlockId : String
  sequenceIds : List Int
  disposition : BlockDisposition
  reason : String := ""
  eventIds : List String := []
  deriving DecidableEq

structure CoverageEventRecord where
  eventId : String
  disposition : EventDisposition
  reason : String
  memoryDisposition : Option MemoryDisposition
  actionDisposition : Option ActionDisposition
  deriving DecidableEq

structure CoverageSemanticUnitRecord where
  microBlockId : String := ""
  meaning : String := ""
  disposition : Option SemanticUnitDisposition := none
  eventId : String := ""
  reason : String := ""
  deriving DecidableEq

structure CoverageLedger where
  actionEvents : Nat := 0
  memoryEvents : Nat := 0
  tasksGenerated : Nat := 0
  notesGenerated : Nat := 0
  rejectedEvents : Nat := 0
  unaccountedBlocks : Nat := 0
  memoryCounts : MemoryDisposition → Nat := fun _ => 0
  memoryUnaccounted : Nat := 0
  memoryCoverageFailure : Bool := false
  actionCounts : ActionDisposition → Nat := fun _ => 0
  actionUnaccounted : Nat := 0
  actionCoverageFailure : Bool := false
  semanticCounts : SemanticUnitDisposition → Nat := fun _ => 0
  unaccountedSemanticUnits : Nat := 0
  semanticCoverageFailure : Bool := false
  blocks : List CoverageBlockRecord := []
  eventRecords : List CoverageEventRecord := []
  semanticUnitRecords : List CoverageSemanticUnitRecord := []
  suspicious : List String := []
  hardFailure : Bool := false

def flag (name : String) (isSet : Bool) (suspicious : List String) : List String :=
  if isSet then if name ∈ suspicious then suspicious else suspicious ++ [name]
  else suspicious.erase name

/-- The counter of `apply_memory_coverage` that an event goes into, and the disposition that it
has from then on. -/
def memoryCounter (event : AtomicEvent) : Option MemoryDisposition :=
  match event.memoryDisposition with
  | some disposition => some disposition
  | none =>
    match event.disposition with
    | some .note => some .publishedNote
    | some .duplicate => some .duplicate
    | some .superseded => some .superseded
    | some .rejected => some .rejectedWithReason
    | some .intentionallyNonPublishable => some .lowValue
    | some .task | none => none

def unresolvedReason (event : AtomicEvent) : Bool :=
  Text.contains "unresolved" (event.actionDispositionReason ++ " " ++ event.dispositionReason) ||
    looselyGrounded event

/-- The counter of `apply_action_coverage` that an event goes into, and the disposition that it
has from then on. -/
def actionCounter (event : AtomicEvent) : Option ActionDisposition :=
  match event.actionDisposition with
  | some disposition => some disposition
  | none =>
    match event.disposition with
    | some .task => some .publishedTask
    | some .duplicate => some .duplicate
    | some .superseded => some .superseded
    | some .rejected => some .validationRejected
    | some .intentionallyNonPublishable =>
      if unresolvedReason event then some .unresolvedObject else some .intentionallyNonpublishable
    | some .note | none => none

/-- What the list comprehension of `unpublished_memory_events` keeps. -/
def isUnpublishedMemory (event : AtomicEvent) : Bool :=
  eventIsMemoryCandidate event && event.memoryDisposition.isNone &&
    event.disposition ∉ [some .note, some .intentionallyNonPublishable, some .duplicate,
      some .superseded, some .rejected]

/-- What the list comprehension of `unpublished_action_events` keeps. -/
def isUnpublishedAction (event : AtomicEvent) : Bool :=
  eventIsActionable event && event.actionDisposition.isNone &&
    event.disposition ∉ [some .task, some .intentionallyNonPublishable, some .duplicate,
      some .superseded, some .rejected]

def suspiciousZeroTaskOutput (events : List AtomicEvent) (tasks : List Artifact) : Bool :=
  let groundedExplicit := events.filter fun event =>
    eventIsActionable event && actionStrength event.actionSignal = "EXPLICIT" &&
      actionObjectGrounded host event && !looselyGrounded event
  tasks.isEmpty && groundedExplicit.any fun event =>
    event.actionDisposition ∈ [none, some .publishedTask]

/-- Every disposition, in the order of `_TERMINAL_MEMORY`. -/
def MemoryDisposition.all : List MemoryDisposition :=
  [.publishedNote, .duplicate, .superseded, .lowValue, .unsupported, .relatedContextOnly,
    .rejectedWithReason]

/-- Every disposition, in the order of `_TERMINAL_ACTION`. -/
def ActionDisposition.all : List ActionDisposition :=
  [.publishedTask, .duplicate, .superseded, .unsupported, .unresolvedObject, .ambiguous,
    .intentionallyNonpublishable, .validationRejected]

/-- Every disposition, in the order of `_TERMINAL_SEMANTIC`. -/
def SemanticUnitDisposition.all : List SemanticUnitDisposition :=
  [.eventCreated, .mergedWithEvent, .lowValue, .noise, .unsupported, .duplicate, .ambiguous]

/-- `(accounted + unaccounted) != len(items) or unaccounted > 0`. -/
def countFails {α κ : Type} [DecidableEq κ] (keys : List κ) (counter : α → Option κ)
    (items : List α) : Bool :=
  (keys.map (countOf counter items)).sum + uncounted counter items ≠ items.length ||
    0 < uncounted counter items

/-- The event that `by_id` has under an id: the last one. -/
def eventById (events : List AtomicEvent) (eventId : String) : Option AtomicEvent :=
  events.reverse.find? (·.eventId = eventId)

def settleMemory (event : AtomicEvent) : AtomicEvent :=
  if eventIsMemoryCandidate event then { event with memoryDisposition := memoryCounter event }
  else event

/-- The record of an event after `apply_memory_coverage`. -/
def memoryRecord (events : List AtomicEvent) (record : CoverageEventRecord) :
    CoverageEventRecord :=
  match eventById events record.eventId with
  | none => record
  | some event =>
    if event.memoryDisposition = none then record
    else
      { record with
        memoryDisposition := event.memoryDisposition
        reason := orText record.reason
          (orText event.memoryDispositionReason event.dispositionReason) }

def applyMemoryCoverage (ledger : CoverageLedger) (events : List AtomicEvent) :
    CoverageLedger × List AtomicEvent :=
  let candidates := events.filter eventIsMemoryCandidate
  let fails := countFails MemoryDisposition.all memoryCounter candidates
  let settled := events.map settleMemory
  ({ ledger with
      memoryCounts := countOf memoryCounter candidates
      memoryUnaccounted := uncounted memoryCounter candidates
      memoryEvents := candidates.length
      memoryCoverageFailure := fails
      hardFailure := ledger.hardFailure || fails
      suspicious := flag "MEMORY_COVERAGE_FAILURE" fails ledger.suspicious
      eventRecords := ledger.eventRecords.map (memoryRecord settled) }, settled)

def settleAction (event : AtomicEvent) : AtomicEvent :=
  if eventIsActionable event then { event with actionDisposition := actionCounter event }
  else event

/-- The record of an event after `apply_action_coverage`. -/
def actionRecord (events : List AtomicEvent) (record : CoverageEventRecord) :
    CoverageEventRecord :=
  match eventById events record.eventId with
  | none => record
  | some event =>
    if event.actionDisposition = none then record
    else
      { record with
        actionDisposition := event.actionDisposition
        reason := orText record.reason
          (orText event.actionDispositionReason event.dispositionReason) }

def applyActionCoverage (ledger : CoverageLedger) (events : List AtomicEvent) :
    CoverageLedger × List AtomicEvent :=
  let actionable := events.filter eventIsActionable
  let fails := countFails ActionDisposition.all actionCounter actionable
  let settled := events.map settleAction
  ({ ledger with
      actionCounts := countOf actionCounter actionable
      actionUnaccounted := uncounted actionCounter actionable
      actionEvents := actionable.length
      actionCoverageFailure := fails
      hardFailure := ledger.hardFailure || fails
      suspicious := flag "ACTION_COVERAGE_FAILURE" fails ledger.suspicious
      eventRecords := ledger.eventRecords.map (actionRecord settled) }, settled)

/-- The key under which a record counts once, `coverage.py:420` to `:424`. -/
inductive SemanticKey where
  | event (eventId : String) (disposition : Option SemanticUnitDisposition)
  | unit (microBlockId meaning reason : String)
  deriving DecidableEq

def CoverageSemanticUnitRecord.key (record : CoverageSemanticUnitRecord) : SemanticKey :=
  if record.eventId ≠ "" then .event record.eventId record.disposition
  else .unit record.microBlockId (host.casefold record.meaning) record.reason

def uniqueRecords : List SemanticKey → List CoverageSemanticUnitRecord →
    List CoverageSemanticUnitRecord
  | _, [] => []
  | seen, record :: rest =>
    if record.key host ∈ seen then uniqueRecords seen rest
    else record :: uniqueRecords (record.key host :: seen) rest

/-- `bootstrap_semantic_records(blocks, events)`, for the events that are
left when some ids were seen. -/
def bootstrapFrom : List String → List AtomicEvent → List CoverageSemanticUnitRecord
  | _, [] => []
  | seen, event :: rest =>
    if event.eventId ∈ seen then bootstrapFrom seen rest
    else
      { microBlockId := event.microBlockIds.headD ""
        meaning := event.meaning
        disposition := if event.kind = .noise then some .noise else some .eventCreated
        eventId := event.eventId
        reason := "event_as_unit" } :: bootstrapFrom (event.eventId :: seen) rest

def bootstrapSemanticRecords (events : List AtomicEvent) : List CoverageSemanticUnitRecord :=
  bootstrapFrom [] events

/-- The semantic records of a pipeline, `pipeline.py:323` to `:332`: those of the reviews, and
one for each event that no review has a record of. -/
def semanticRecords (reviewed : List CoverageSemanticUnitRecord) (events : List AtomicEvent) :
    List CoverageSemanticUnitRecord :=
  if reviewed = [] then bootstrapSemanticRecords events
  else reviewed ++ bootstrapSemanticRecords
    (events.filter fun event =>
      reviewed.all fun record => record.eventId = "" || record.eventId ≠ event.eventId)

def applySemanticCoverage (ledger : CoverageLedger) (records : List CoverageSemanticUnitRecord)
    (events : List AtomicEvent) : CoverageLedger :=
  let records := if records = [] then ledger.semanticUnitRecords else records
  let records := if records = [] then bootstrapSemanticRecords events else records
  let unique := uniqueRecords host [] records
  let fails := countFails SemanticUnitDisposition.all (·.disposition) unique
  { ledger with
    semanticUnitRecords := unique
    semanticCounts := countOf (·.disposition) unique
    unaccountedSemanticUnits := uncounted (·.disposition) unique
    semanticCoverageFailure := fails
    hardFailure := ledger.hardFailure || fails
    suspicious := flag "SEMANTIC_COVERAGE_FAILURE" fails ledger.suspicious }

/-- The events of `events_by_block` under a block, once for each time they name it. -/
def eventsOfBlock (events : List AtomicEvent) (microBlockId : String) : List AtomicEvent :=
  events.flatMap fun event =>
    let ids := if event.microBlockIds = [] then ["unassigned"] else event.microBlockIds
    (ids.filter (· = microBlockId)).map fun _ => event

/-- The record of a block, `coverage.py:48` to `:68`. -/
def blockRecord (events : List AtomicEvent) (block : MicroBlock) : CoverageBlockRecord :=
  let related := eventsOfBlock events block.microBlockId
  if related = [] then
    { microBlockId := block.microBlockId
      sequenceIds := block.sequenceIds
      disposition := .noEvent
      reason := "unaccounted" }
  else
    { microBlockId := block.microBlockId
      sequenceIds := block.sequenceIds
      disposition := .producedEvents
      eventIds := related.map (·.eventId) }

def CoverageBlockRecord.isUnaccounted (record : CoverageBlockRecord) : Bool :=
  record.disposition = .noEvent && record.reason = "unaccounted"

/-- The record of an event, `coverage.py:70` to `:83`. -/
def eventRecord (event : AtomicEvent) : CoverageEventRecord where
  eventId := event.eventId
  disposition := event.disposition.getD .rejected
  reason := orText event.dispositionReason event.memoryDispositionReason
  memoryDisposition := event.memoryDisposition
  actionDisposition := event.actionDisposition

/-- The suspicions about events without artifacts, `coverage.py:109` to `:140`. -/
def suspect (ledger : CoverageLedger) (events : List AtomicEvent)
    (tasks notes : List Artifact) : CoverageLedger :=
  let unpublishedMemory := events.any isUnpublishedMemory
  let withoutNotes := events.any eventIsMemoryCandidate && notes.isEmpty
  let leftover := events.any fun event =>
    eventIsMemoryCandidate event && event.memoryDisposition.isNone
  let unpublishedActions := events.any isUnpublishedAction
  { ledger with
    hardFailure := ledger.hardFailure || unpublishedMemory || (withoutNotes && leftover)
    suspicious := ledger.suspicious ++
      (if unpublishedMemory then ["unpublished_memory_events"] else []) ++
      (if withoutNotes && (unpublishedMemory || leftover) then ["memory_events_without_notes"]
        else []) ++
      (if unpublishedActions then ["unpublished_action_events"] else []) ++
      (if unpublishedActions && events.any eventIsActionable && tasks.isEmpty then
        ["action_events_without_tasks"] else []) ++
      if suspiciousZeroTaskOutput host events tasks then ["SUSPICIOUS_ZERO_TASK_OUTPUT"] else [] }

def buildCoverageLedger (blocks : List MicroBlock) (events : List AtomicEvent)
    (tasks notes : List Artifact) : CoverageLedger × List AtomicEvent :=
  let records := blocks.map (blockRecord events)
  let unaccounted := records.countP (·.isUnaccounted)
  let ledger : CoverageLedger :=
    { tasksGenerated := tasks.length
      notesGenerated := notes.length
      rejectedEvents := events.countP fun event => event.disposition.getD .rejected = .rejected
      unaccountedBlocks := unaccounted
      blocks := records
      eventRecords := events.map eventRecord
      hardFailure := 0 < unaccounted
      suspicious := if 0 < unaccounted then ["unaccounted_blocks"] else [] }
  let (ledger, events) := applyMemoryCoverage ledger events
  let (ledger, events) := applyActionCoverage ledger events
  (suspect host ledger events tasks notes, events)

def markBlockNoEvent (ledger : CoverageLedger) (microBlockId reason : String) : CoverageLedger :=
  let blocks := ledger.blocks.map fun record =>
    if record.microBlockId = microBlockId then { record with disposition := .noEvent, reason }
    else record
  let unaccounted := blocks.countP (·.isUnaccounted)
  { ledger with
    blocks
    unaccountedBlocks := unaccounted
    hardFailure := 0 < unaccounted || "memory_events_without_notes" ∈ ledger.suspicious }

def coversBlock (events : List AtomicEvent) (microBlockId : String) : Bool :=
  events.any fun event => microBlockId ∈ event.microBlockIds

/-- One record in the first loop of `_account_explicit_no_events`. -/
def accountRecord (events : List AtomicEvent) (ledger : CoverageLedger) (i : Nat) :
    CoverageLedger :=
  match ledger.blocks[i]? with
  | none => ledger
  | some record =>
    if record.isUnaccounted then
      if coversBlock events record.microBlockId then
        { ledger with
          blocks := ledger.blocks.modify i ({ · with reason := "produced_via_event" }) }
      else
        let related := events.filter fun event => record.microBlockId ∈ event.microBlockIds
        if related ≠ [] ∧ related.all (·.kind = .noise) then
          markBlockNoEvent ledger record.microBlockId "no_supported_event"
        else ledger
    else ledger

/-- One record in the second loop, `pipeline.py:742`. -/
def relabel (events : List AtomicEvent) (record : CoverageBlockRecord) : CoverageBlockRecord :=
  if record.disposition = .noEvent ∧ (record.reason = "" ∨ record.reason = "unaccounted") then
    { record with
      reason := if coversBlock events record.microBlockId then "produced_via_event"
        else "no_supported_event" }
  else record

def accountExplicitNoEvents (ledger : CoverageLedger) (events : List AtomicEvent) :
    CoverageLedger :=
  let ledger := (List.range ledger.blocks.length).foldl (accountRecord events) ledger
  let blocks := ledger.blocks.map (relabel events)
  let still := blocks.countP (·.reason = "unaccounted")
  { ledger with
    blocks
    unaccountedBlocks := still
    hardFailure := 0 < still || "memory_events_without_notes" ∈ ledger.suspicious }

end AiBuddy.EventPipeline
