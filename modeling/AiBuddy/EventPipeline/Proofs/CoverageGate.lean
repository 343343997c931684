import AiBuddy.EventPipeline.Pipeline

/-!
# What the publication gate sees of a skipped block

`_account_explicit_no_events` gives every block that nothing accounts for the reason of a block
that was looked at, so that the gate's count of them is zero whatever was extracted.
-/

namespace AiBuddy.EventPipeline

open Conversation Counting

variable (host : Host) (answers : Answers)

variable {event : AtomicEvent}

theorem isUnpublishedMemory_iff :
    isUnpublishedMemory event = true ↔
      eventIsMemoryCandidate event = true ∧ memoryCounter event = none := by
  unfold isUnpublishedMemory memoryCounter
  cases event.memoryDisposition with
  | some disposition => simp
  | none =>
    cases event.disposition with
    | none => simp
    | some disposition => cases disposition <;> simp

theorem isUnpublishedAction_iff :
    isUnpublishedAction event = true ↔
      eventIsActionable event = true ∧ event.actionDisposition = none ∧
        (event.disposition = none ∨ event.disposition = some .note) := by
  unfold isUnpublishedAction
  cases event.actionDisposition with
  | some disposition => simp
  | none =>
    cases event.disposition with
    | none => simp
    | some disposition => cases disposition <;> simp

theorem actionCounter_eq_none_iff :
    actionCounter event = none ↔ event.actionDisposition = none ∧
      (event.disposition = none ∨ event.disposition = some .note) := by
  unfold actionCounter
  cases event.actionDisposition with
  | some disposition => simp
  | none =>
    cases event.disposition with
    | none => simp
    | some disposition =>
      cases disposition <;> simp
      split <;> simp

theorem markUnsupportedMemory_counted {event : AtomicEvent}
    (h : eventIsMemoryCandidate (markUnsupportedMemory event) = true) :
    memoryCounter (markUnsupportedMemory event) ≠ none := by
  unfold markUnsupportedMemory at h ⊢
  split
  case isTrue => exact Option.some_ne_none _
  case isFalse hpublished =>
    rw [if_neg hpublished] at h
    exact fun hnone => hpublished (isUnpublishedMemory_iff.mpr ⟨h, hnone⟩)

theorem markUnsupportedAction_counted {event : AtomicEvent}
    (h : eventIsActionable (markUnsupportedAction event) = true) :
    actionCounter (markUnsupportedAction event) ≠ none := by
  unfold markUnsupportedAction at h ⊢
  split
  case isTrue =>
    intro hnone
    have := (actionCounter_eq_none_iff.mp hnone).1
    rw [setActionDisposition_actionDisposition] at this
    exact Option.some_ne_none _ this
  case isFalse hpublished =>
    rw [if_neg hpublished] at h
    exact fun hnone =>
      hpublished (isUnpublishedAction_iff.mpr ⟨h, actionCounter_eq_none_iff.mp hnone⟩)

theorem countFails_eq_false_iff {α κ : Type} [DecidableEq κ] {keys : List κ}
    (hnodup : keys.Nodup) (hall : ∀ key, key ∈ keys) {counter : α → Option κ}
    {items : List α} :
    countFails keys counter items = false ↔ ∀ item ∈ items, counter item ≠ none := by
  have htotal := sum_countOf_add_uncounted hnodup hall counter items
  rw [← uncounted_eq_zero_iff]
  unfold countFails
  simp [htotal]

theorem MemoryDisposition.mem_all (disposition : MemoryDisposition) :
    disposition ∈ MemoryDisposition.all := by
  cases disposition <;> decide

theorem ActionDisposition.mem_all (disposition : ActionDisposition) :
    disposition ∈ ActionDisposition.all := by
  cases disposition <;> decide

theorem SemanticUnitDisposition.mem_all (disposition : SemanticUnitDisposition) :
    disposition ∈ SemanticUnitDisposition.all := by
  cases disposition <;> decide

variable {events : List AtomicEvent}

theorem memoryCoverage_of_marked :
    countFails MemoryDisposition.all memoryCounter
      ((events.map markUnsupportedMemory).filter eventIsMemoryCandidate) = false := by
  refine (countFails_eq_false_iff (by decide) MemoryDisposition.mem_all).mpr ?_
  intro event hevent
  obtain ⟨hmem, hcandidate⟩ := List.mem_filter.mp hevent
  obtain ⟨before, -, rfl⟩ := List.mem_map.mp hmem
  exact markUnsupportedMemory_counted hcandidate

theorem actionCoverage_of_marked :
    countFails ActionDisposition.all actionCounter
      ((events.map markUnsupportedAction).filter eventIsActionable) = false := by
  refine (countFails_eq_false_iff (by decide) ActionDisposition.mem_all).mpr ?_
  intro event hevent
  obtain ⟨hmem, hactionable⟩ := List.mem_filter.mp hevent
  obtain ⟨before, -, rfl⟩ := List.mem_map.mp hmem
  exact markUnsupportedAction_counted hactionable

def Labelled (ledger : CoverageLedger) : Prop :=
  ∀ record ∈ ledger.blocks, record.reason = "unaccounted" → record.disposition = .noEvent

theorem labelled_blockRecord {block : MicroBlock}
    (h : (blockRecord events block).reason = "unaccounted") :
    (blockRecord events block).disposition = .noEvent := by
  unfold blockRecord at h ⊢
  dsimp only at h ⊢
  split
  · rfl
  case isFalse hrelated =>
    rw [if_neg hrelated] at h
    exact absurd h (show ("" : String) ≠ "unaccounted" by decide)

variable {tasks notes : List Artifact}

theorem buildCoverageLedger_blocks {blocks : List MicroBlock} :
    (buildCoverageLedger host blocks events tasks notes).1.blocks =
      blocks.map (blockRecord events) := rfl

theorem labelled_build {blocks : List MicroBlock} :
    Labelled (buildCoverageLedger host blocks events tasks notes).1 := by
  intro record hrecord
  rw [buildCoverageLedger_blocks] at hrecord
  obtain ⟨block, -, rfl⟩ := List.mem_map.mp hrecord
  exact labelled_blockRecord

variable {ledger : CoverageLedger}

theorem labelled_markBlockNoEvent (h : Labelled ledger) {microBlockId : String} :
    Labelled (markBlockNoEvent ledger microBlockId "no_supported_event") := by
  intro record hrecord hreason
  obtain ⟨before, hmem, rfl⟩ := List.mem_map.mp hrecord
  split at hreason
  · exact absurd hreason (show ("no_supported_event" : String) ≠ "unaccounted" by decide)
  case isFalse hother =>
    rw [if_neg hother]
    exact h before hmem hreason

theorem labelled_accountRecord (h : Labelled ledger) {i : Nat} :
    Labelled (accountRecord events ledger i) := by
  unfold accountRecord
  split
  · exact h
  · split
    case isFalse => exact h
    case isTrue =>
      split
      case isTrue =>
        intro record hrecord hreason
        obtain ⟨j, hj, rfl⟩ := List.mem_iff_getElem.mp hrecord
        rw [List.getElem_modify] at hreason ⊢
        split at hreason
        · exact absurd hreason (show ("produced_via_event" : String) ≠ "unaccounted" by decide)
        case isFalse hne =>
          rw [if_neg hne]
          exact h _ (List.getElem_mem _) hreason
      case isFalse =>
        dsimp only
        split
        · exact labelled_markBlockNoEvent h
        · exact h

theorem labelled_foldl {indices : List Nat} (h : Labelled ledger) :
    Labelled (indices.foldl (accountRecord events) ledger) := by
  induction indices generalizing ledger with
  | nil => exact h
  | cons i rest ih => exact ih (labelled_accountRecord h)

theorem relabel_reason_ne {record : CoverageBlockRecord}
    (h : record.reason = "unaccounted" → record.disposition = .noEvent) :
    (relabel events record).reason ≠ "unaccounted" := by
  unfold relabel
  split
  · dsimp only
    split <;> decide
  case isFalse hkept => exact fun hreason => hkept ⟨h hreason, .inr hreason⟩

theorem accountExplicitNoEvents_unaccountedBlocks (h : Labelled ledger) :
    (accountExplicitNoEvents ledger events).unaccountedBlocks = 0 := by
  refine List.countP_eq_zero.mpr fun record hrecord => ?_
  obtain ⟨before, hmem, rfl⟩ := List.mem_map.mp hrecord
  rw [decide_eq_true_eq]
  exact relabel_reason_ne (labelled_foldl h before hmem)

def AllDisposed (records : List CoverageSemanticUnitRecord) : Prop :=
  ∀ record ∈ records, record.disposition ≠ none

theorem allDisposed_bootstrap (events : List AtomicEvent) (seen : List String) :
    AllDisposed (bootstrapFrom seen events) := by
  induction events generalizing seen with
  | nil => exact List.forall_mem_nil _
  | cons event rest ih =>
    rw [bootstrapFrom]
    split
    · exact ih seen
    · refine List.forall_mem_cons.mpr ⟨?_, ih _⟩
      dsimp only
      split <;> exact Option.some_ne_none _

theorem mem_of_mem_uniqueRecords {record : CoverageSemanticUnitRecord} :
    ∀ {records : List CoverageSemanticUnitRecord} {seen : List SemanticKey},
      record ∈ uniqueRecords host seen records → record ∈ records := by
  intro records
  induction records with
  | nil => exact fun h => h
  | cons first rest ih =>
    intro seen h
    rw [uniqueRecords] at h
    split at h
    · exact List.mem_cons_of_mem _ (ih h)
    · rcases List.mem_cons.mp h with heq | hrest
      · exact List.mem_cons.mpr (.inl heq)
      · exact List.mem_cons_of_mem _ (ih hrest)

theorem allDisposed_unique_append {more : List CoverageSemanticUnitRecord}
    (hmore : AllDisposed more) (records : List CoverageSemanticUnitRecord)
    (seen : List SemanticKey) :
    AllDisposed (uniqueRecords host seen (records ++ more)) ↔
      AllDisposed (uniqueRecords host seen records) := by
  induction records generalizing seen with
  | nil =>
    refine ⟨fun _ => List.forall_mem_nil _, fun _ record hrecord => ?_⟩
    exact hmore record (mem_of_mem_uniqueRecords host hrecord)
  | cons first rest ih =>
    rw [List.cons_append, uniqueRecords, uniqueRecords]
    split
    · exact ih seen
    · unfold AllDisposed
      rw [List.forall_mem_cons, List.forall_mem_cons]
      exact and_congr_right fun _ => ih _

theorem allDisposed_semanticRecords (reviewed : List CoverageSemanticUnitRecord)
    (events : List AtomicEvent) :
    AllDisposed (uniqueRecords host [] (semanticRecords reviewed events)) ↔
      AllDisposed (uniqueRecords host [] reviewed) := by
  unfold semanticRecords
  split
  case isTrue hnone =>
    have hleft := (allDisposed_unique_append host (allDisposed_bootstrap events []) [] []).mpr
      (List.forall_mem_nil _)
    rw [hnone]
    exact ⟨fun _ => List.forall_mem_nil _, fun _ => hleft⟩
  case isFalse => exact allDisposed_unique_append host (allDisposed_bootstrap _ []) reviewed []

theorem semanticCoverage_iff (hledger : ledger.semanticUnitRecords = [])
    {reviewed : List CoverageSemanticUnitRecord} :
    (applySemanticCoverage host ledger (semanticRecords reviewed events)
        events).semanticCoverageFailure = false ↔
      AllDisposed (uniqueRecords host [] reviewed) := by
  refine (countFails_eq_false_iff (by decide) SemanticUnitDisposition.mem_all).trans ?_
  rw [hledger]
  by_cases hnone : semanticRecords reviewed events = []
  · have hboth := allDisposed_semanticRecords host reviewed events
    rw [hnone] at hboth
    rw [if_pos hnone, if_pos rfl]
    refine Iff.trans ?_ hboth
    refine ⟨fun _ => List.forall_mem_nil _, fun _ record hrecord => ?_⟩
    exact allDisposed_bootstrap events [] record (mem_of_mem_uniqueRecords host hrecord)
  · rw [if_neg hnone, if_neg hnone]
    exact allDisposed_semanticRecords host reviewed events

theorem accountRecord_semanticUnitRecords (events : List AtomicEvent) (ledger : CoverageLedger)
    (i : Nat) :
    (accountRecord events ledger i).semanticUnitRecords = ledger.semanticUnitRecords := by
  unfold accountRecord
  split
  · rfl
  · split
    case isFalse => rfl
    case isTrue =>
      split
      case isTrue => rfl
      case isFalse =>
        dsimp only
        split <;> rfl

theorem accountExplicitNoEvents_semanticUnitRecords (events : List AtomicEvent)
    (ledger : CoverageLedger) :
    (accountExplicitNoEvents ledger events).semanticUnitRecords = ledger.semanticUnitRecords := by
  unfold accountExplicitNoEvents
  generalize List.range ledger.blocks.length = indices
  induction indices generalizing ledger with
  | nil => rfl
  | cons i rest ih =>
    exact (ih (accountRecord events ledger i)).trans
      (accountRecord_semanticUnitRecords events ledger i)

variable (input : PipelineInput)

theorem coverageStage_unaccountedBlocks (run : Run) (tasks notes : List Artifact) :
    (coverageStage host answers input run tasks notes).ledger.unaccountedBlocks = 0 :=
  accountExplicitNoEvents_unaccountedBlocks (labelled_build host)

theorem coverageStage_memoryCoverageFailure (run : Run) (tasks notes : List Artifact) :
    (coverageStage host answers input run tasks notes).ledger.memoryCoverageFailure = false :=
  memoryCoverage_of_marked

theorem coverageStage_actionCoverageFailure (run : Run) (tasks notes : List Artifact) :
    (coverageStage host answers input run tasks notes).ledger.actionCoverageFailure = false :=
  actionCoverage_of_marked

theorem coverageStage_semanticCoverageFailure (run : Run) (tasks notes : List Artifact) :
    (coverageStage host answers input run tasks notes).ledger.semanticCoverageFailure = false ↔
      AllDisposed (uniqueRecords host [] input.reviewed) :=
  semanticCoverage_iff host (accountExplicitNoEvents_semanticUnitRecords _ _)

theorem settleMemory_settled {event : AtomicEvent}
    (h : eventIsMemoryCandidate (settleMemory (markUnsupportedMemory event)) = true) :
    (settleMemory (markUnsupportedMemory event)).memoryDisposition ≠ none := by
  unfold settleMemory at h ⊢
  split
  case isTrue hcandidate => exact markUnsupportedMemory_counted hcandidate
  case isFalse hcandidate =>
    rw [if_neg hcandidate] at h
    exact absurd h hcandidate

theorem settleAction_settled {event : AtomicEvent}
    (h : eventIsActionable (settleAction (markUnsupportedAction event)) = true) :
    (settleAction (markUnsupportedAction event)).actionDisposition ≠ none := by
  unfold settleAction at h ⊢
  split
  case isTrue hactionable => exact markUnsupportedAction_counted hactionable
  case isFalse hactionable =>
    rw [if_neg hactionable] at h
    exact absurd h hactionable

theorem settleAction_memory {event : AtomicEvent} :
    (settleAction (markUnsupportedAction event)).memoryDisposition = event.memoryDisposition ∧
      eventIsMemoryCandidate (settleAction (markUnsupportedAction event)) =
        eventIsMemoryCandidate event := by
  have hmark : (markUnsupportedAction event).memoryDisposition = event.memoryDisposition ∧
      eventIsMemoryCandidate (markUnsupportedAction event) = eventIsMemoryCandidate event := by
    unfold markUnsupportedAction
    split
    · obtain ⟨_, _, _, h⟩ := setActionDisposition_frame event .unsupported "no_publishable_task"
      rw [h]
      exact ⟨rfl, rfl⟩
    · exact ⟨rfl, rfl⟩
  unfold settleAction
  split
  · exact hmark
  · exact hmark

def repaired (input : PipelineInput) (run : Run) (tasks notes : List Artifact) :
    Run × List Artifact × List Artifact :=
  repair host answers input.maxRepairRounds
    { run with events := (run.events.map settleMemory).map settleAction } tasks notes

theorem coverageStage_events (run : Run) (tasks notes : List Artifact) :
    (coverageStage host answers input run tasks notes).events =
      ((((repaired host answers input run tasks notes).1.events.map markUnsupportedMemory).map
        settleMemory).map markUnsupportedAction).map settleAction := rfl

theorem coverageStage_hardFailure {input : PipelineInput} {run : Run} :
    (coverageStage host answers input run tasks notes).ledger.hardFailure =
      (coverageStage host answers input run tasks notes).ledger.semanticCoverageFailure := by
  have hmemory : ∀ events : List AtomicEvent, ((((events.map markUnsupportedMemory).map
      settleMemory).map markUnsupportedAction).map settleAction).any isUnpublishedMemory =
        false := by
    intro events
    rw [List.any_eq_false]
    intro event hevent hunpublished
    simp only [List.mem_map, exists_exists_and_eq_and] at hevent
    obtain ⟨before, -, rfl⟩ := hevent
    obtain ⟨hsame, hcandidate⟩ :=
      settleAction_memory
    obtain ⟨hmem, hnone⟩ := isUnpublishedMemory_iff.mp hunpublished
    have hsettled := settleMemory_settled (hcandidate ▸ hmem)
    obtain ⟨disposition, hdisposition⟩ := Option.ne_none_iff_exists'.mp hsettled
    rw [memoryCounter, hsame, hdisposition] at hnone
    exact Option.some_ne_none _ hnone
  have haction : ∀ events : List AtomicEvent, ((events.map markUnsupportedAction).map
      settleAction).any isUnpublishedAction = false := by
    intro events
    rw [List.any_eq_false]
    intro event hevent hunpublished
    simp only [List.mem_map, exists_exists_and_eq_and] at hevent
    obtain ⟨before, -, rfl⟩ := hevent
    obtain ⟨hactionable, hnone, -⟩ := isUnpublishedAction_iff.mp hunpublished
    exact settleAction_settled hactionable hnone
  have hblocks := coverageStage_unaccountedBlocks host answers input run tasks notes
  have hmemoryFails := coverageStage_memoryCoverageFailure host answers input run tasks notes
  have hactionFails := coverageStage_actionCoverageFailure host answers input run tasks notes
  have hhard : (coverageStage host answers input run tasks notes).ledger.hardFailure =
      (decide (0 < (coverageStage host answers input run tasks notes).ledger.unaccountedBlocks) ||
        (coverageStage host answers input run tasks notes).events.any isUnpublishedMemory ||
        (coverageStage host answers input run tasks notes).events.any isUnpublishedAction ||
        (coverageStage host answers input run tasks notes).ledger.memoryCoverageFailure ||
        (coverageStage host answers input run tasks notes).ledger.actionCoverageFailure ||
        (coverageStage host answers input run tasks notes).ledger.semanticCoverageFailure) := rfl
  rw [hhard, hblocks, hmemoryFails, hactionFails, coverageStage_events, hmemory, haction]
  rfl

theorem publicationReady_eq_false_iff {input : PipelineInput} :
    (publicationReady input.coverageLedgerEnabled (runEventPipeline host answers input)).1 =
        false ↔
      0 < input.asyncLifecycleErrors ∨ (∃ stage ∈ requiredStages, stage ∉ input.stages) ∨
        (input.coverageLedgerEnabled = true ∧
          ∃ record ∈ uniqueRecords host [] input.reviewed, record.disposition = none) := by
  have hstages : (runEventPipeline host answers input).stages = input.stages := by
    unfold runEventPipeline
    cases input.coverageLedgerEnabled <;> rfl
  have herrors : (runEventPipeline host answers input).asyncLifecycleErrors =
      input.asyncLifecycleErrors := by
    unfold runEventPipeline
    cases input.coverageLedgerEnabled <;> rfl
  have hmissing : requiredStages.filter (· ∉ input.stages) ≠ [] ↔
      ∃ stage ∈ requiredStages, stage ∉ input.stages := by
    rw [Ne, List.filter_eq_nil_iff]
    simp
  unfold publicationReady
  rw [hstages, herrors]
  dsimp only
  by_cases hasync : 0 < input.asyncLifecycleErrors
  · rw [if_pos hasync]
    exact ⟨fun _ => .inl hasync, fun _ => rfl⟩
  rw [if_neg hasync]
  by_cases hstage : requiredStages.filter (· ∉ input.stages) ≠ []
  · rw [if_pos hstage]
    exact ⟨fun _ => .inr (.inl (hmissing.mp hstage)), fun _ => rfl⟩
  rw [if_neg hstage]
  have hnostage := fun h => hstage (hmissing.mpr h)
  cases hledger : input.coverageLedgerEnabled with
  | false =>
    refine ⟨fun h => absurd h Bool.true_eq_false.mp, ?_⟩
    rintro (h | h | ⟨h, -⟩)
    · exact absurd h hasync
    · exact absurd h hnostage
    · exact absurd h (by decide)
  | true =>
    obtain ⟨run, tasks, notes, hcoverage⟩ : ∃ run tasks notes,
        (runEventPipeline host answers input).coverage =
          some (coverageStage host answers input run tasks notes).ledger := by
      unfold runEventPipeline
      rw [hledger]
      exact ⟨_, _, _, rfl⟩
    rw [if_pos rfl, hcoverage]
    dsimp only
    rw [coverageStage_hardFailure, coverageStage_unaccountedBlocks,
      coverageStage_memoryCoverageFailure, coverageStage_actionCoverageFailure]
    have hsemantic := coverageStage_semanticCoverageFailure host answers input run tasks notes
    have hunlabelled : (coverageStage host answers input run tasks
        notes).ledger.semanticCoverageFailure = true ↔
          ∃ record ∈ uniqueRecords host [] input.reviewed, record.disposition = none := by
      rw [← Bool.not_eq_false, hsemantic]
      unfold AllDisposed
      push Not
      rfl
    cases hfails : (coverageStage host answers input run tasks
        notes).ledger.semanticCoverageFailure with
    | true => exact ⟨fun _ => .inr (.inr ⟨rfl, hunlabelled.mp hfails⟩), fun _ => rfl⟩
    | false =>
      refine ⟨fun h => absurd h (by decide), ?_⟩
      rintro (h | h | ⟨-, h⟩)
      · exact absurd h hasync
      · exact absurd h hnostage
      · rw [hunlabelled.mpr h] at hfails
        exact absurd hfails (by decide)

structure SilentlySkipped (input : PipelineInput) (block : MicroBlock) : Prop where
  mem : block ∈ input.blocks
  useful : Text.strip block.text ≠ ""
  uncovered : ∀ event ∈ input.events, block.microBlockId ∉ event.microBlockIds
  undeclared : ∀ record ∈ input.reviewed, record.microBlockId ≠ block.microBlockId

/-- A run that skipped a block is held back only by what has nothing to do with the block. -/
theorem skipped_held_back_iff (input : PipelineInput) :
    ((∃ block, SilentlySkipped input block) →
        (publicationReady input.coverageLedgerEnabled (runEventPipeline host answers input)).1 =
          false) ↔
      (∀ block, ¬ SilentlySkipped input block) ∨ 0 < input.asyncLifecycleErrors ∨
        (∃ stage ∈ requiredStages, stage ∉ input.stages) ∨
        (input.coverageLedgerEnabled = true ∧
          ∃ record ∈ uniqueRecords host [] input.reviewed, record.disposition = none) := by
  rw [publicationReady_eq_false_iff, imp_iff_not_or, not_exists]

def launchHost : Host where
  casefold := Text.lower
  casefold_empty := lower_empty
  isWord c := c.isAlphanum || c = '_'
  digest text := text
  cosine _ _ := 0

def launchAnswers : Answers where
  draftTask _ := none
  draftNote _ := some ⟨"Launch", "launch"⟩
  check _ := .keep "Launch"

def launchInput : PipelineInput where
  events := [{
    eventId := "E_1"
    kind := .fact
    meaning := "The launch moves to Friday."
    evidence := [⟨1, 1, "The launch moves to Friday."⟩]
    microBlockIds := ["B1"]
    sequenceIds := [1] }]
  distinct := List.nodup_singleton _
  blocks := [
    { microBlockId := "B1", sequenceIds := [1], text := "[1] The launch moves to Friday." },
    { microBlockId := "B2", sequenceIds := [2], text := "[2] Approved." }]
  stages := requiredStages ++ ["coverage"]

/-- The run is published as complete although nothing was extracted from its second block. -/
theorem skipped_block_published :
    (∃ block, SilentlySkipped launchInput block) ∧
      (publicationReady launchInput.coverageLedgerEnabled
        (runEventPipeline launchHost launchAnswers launchInput)).1 = true := by
  constructor
  · refine ⟨{ microBlockId := "B2", sequenceIds := [2], text := "[2] Approved." }, ?_, ?_, ?_, ?_⟩
    · exact List.mem_cons_of_mem _ List.mem_cons_self
    · decide
    · decide
    · exact List.forall_mem_nil _
  · rw [← Bool.not_eq_false, publicationReady_eq_false_iff]
    rintro (h | ⟨stage, hstage, hmissing⟩ | ⟨-, record, hrecord, -⟩)
    · exact absurd h (Nat.lt_irrefl 0)
    · exact hmissing (List.mem_append_left _ hstage)
    · exact List.not_mem_nil hrecord

end AiBuddy.EventPipeline
