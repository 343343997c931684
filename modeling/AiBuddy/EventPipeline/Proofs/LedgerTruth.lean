import AiBuddy.EventPipeline.Proofs.CoverageGate
import AiBuddy.EventPipeline.Proofs.Validation

/-!
# When the coverage ledger tells the truth

An event that counts as published has an artifact in the output, but for one kind of rejection:
`_mark_events` keeps the memory disposition of the event of a rejected note, unless the event is
published as a task.
-/

namespace AiBuddy.EventPipeline

open Conversation Counting

variable (host : Host) (answers : Answers)

/-! ## After the synthesis -/

variable {i : Nat}

theorem mem_positions {takes : AtomicEvent → Bool} {events : List AtomicEvent} :
    i ∈ positions takes events ↔ ∃ event, events[i]? = some event ∧ takes event = true := by
  unfold positions
  rw [List.mem_filter, List.mem_range]
  constructor
  · rintro ⟨-, htakes⟩
    cases hevent : events[i]? with
    | none =>
      rw [hevent] at htakes
      exact absurd htakes Bool.false_ne_true
    | some event =>
      rw [hevent] at htakes
      exact ⟨event, rfl, htakes⟩
  · rintro ⟨event, hevent, htakes⟩
    refine ⟨(List.getElem?_eq_some_iff.mp hevent).1, ?_⟩
    rw [hevent]
    exact htakes

theorem nodup_positions {takes : AtomicEvent → Bool} {events : List AtomicEvent} :
    (positions takes events).Nodup :=
  List.nodup_range.filter _

theorem sameFacts_splitEvent {event : AtomicEvent} : SameFacts event (splitEvent host event) := by
  unfold splitEvent
  split
  · exact ⟨rfl, rfl, rfl, rfl⟩
  · split <;> exact ⟨rfl, rfl, rfl, rfl⟩

variable {event : AtomicEvent}

theorem splitEvent_noise (h : event.kind = .noise) :
    (splitEvent host event).disposition = some .intentionallyNonPublishable ∧
      (splitEvent host event).actionDisposition = event.actionDisposition := by
  unfold splitEvent
  rw [if_pos (by rw [h]; rfl)]
  exact ⟨rfl, rfl⟩

structure Synthesized (tasks notes : List Artifact) (before after : AtomicEvent) : Prop where
  facts : SameFacts before after
  memory : eventIsMemoryCandidate before = true → after.memoryDisposition ≠ none ∧
    (after.memoryDisposition = some .publishedNote →
      ∃ item ∈ notes, item.sourceSemanticUnitIds = [before.eventId])
  action : eventIsActionable before = true → before.kind ≠ .noise →
    after.actionDisposition ≠ none ∧ (after.actionDisposition = some .publishedTask →
      ∃ item ∈ tasks, item.sourceSemanticUnitIds = [before.eventId])
  noise : before.kind = .noise → after.disposition = some .intentionallyNonPublishable ∧
    after.actionDisposition = before.actionDisposition

structure Sourced (events : List AtomicEvent) (tasks notes : List Artifact) : Prop where
  task : ∀ item ∈ tasks, item.kind = .task ∧ ∃ event ∈ events, event.kind ≠ .noise ∧
    item.sourceSemanticUnitIds = [event.eventId]
  note : ∀ item ∈ notes, item.kind = .note ∧ ∃ event ∈ events,
    eventIsMemoryCandidate event = true ∧ item.sourceSemanticUnitIds = [event.eventId]
  nodup : (notes.map (·.sourceSemanticUnitIds)).Nodup

theorem kind_ne_noise_of_candidate (h : eventIsMemoryCandidate event = true) :
    event.kind ≠ .noise := by
  intro hnoise
  unfold eventIsMemoryCandidate at h
  rw [hnoise] at h
  exact absurd h (by simp)

theorem kind_ne_noise_of_publishable (h : (!event.kind.isNonPublishable) = true) :
    event.kind ≠ .noise := by
  intro hnoise
  rw [hnoise] at h
  exact absurd h (by decide)

theorem nonPublishable_eq_false (h : event.kind ≠ .noise) :
    event.kind.isNonPublishable = false := by
  unfold EventKind.isNonPublishable
  split
  case h_1 heq => exact absurd heq h
  case h_2 => rfl

theorem eq_of_positions {events : List AtomicEvent} (hdistinct : (events.map (·.eventId)).Nodup)
    {j : Nat} {first second : AtomicEvent} (hfirst : events[i]? = some first)
    (hsecond : events[j]? = some second) (h : first.eventId = second.eventId) : i = j := by
  have hi := (List.getElem?_eq_some_iff.mp hfirst).1
  refine (List.getElem?_inj (by rwa [List.length_map]) hdistinct).mp ?_
  rw [List.getElem?_map, List.getElem?_map, hfirst, hsecond, Option.map_some, Option.map_some, h]

def actionPositions (input : PipelineInput) : List Nat :=
  positions (fun event => !event.kind.isNonPublishable && eventIsActionable event) input.events

def memoryPositions (input : PipelineInput) : List Nat :=
  positions (fun event => !event.kind.isNonPublishable && eventIsMemoryCandidate event)
    input.events

def taskLoop (input : PipelineInput) : TaskLoop :=
  synthesizeTasks host answers { events := input.events.map (splitEvent host) }
    (actionPositions input)

def noteLoop (input : PipelineInput) : NoteLoop :=
  synthesizeNotes host answers (taskLoop host answers input).run (memoryPositions input)

variable (input : PipelineInput)

theorem taskLoop_sound :
    (taskLoop host answers input).Sound (input.events.map (splitEvent host))
      (actionPositions input).reverse :=
  synthesizeTasks_sound { events := input.events.map (splitEvent host) } (actionPositions input)

theorem taskLoop_event {input : PipelineInput} {before : AtomicEvent}
    (hbefore : input.events[i]? = some before) :
    ∃ after, (taskLoop host answers input).run.events[i]? = some after ∧
      SameFacts before after := by
  have hstart : (input.events.map (splitEvent host))[i]? = some (splitEvent host before) := by
    rw [List.getElem?_map, hbefore]
    rfl
  obtain ⟨after, hafter, hkept⟩ := (taskLoop_sound host answers input).follows.after hstart
  exact ⟨after, hafter, (sameFacts_splitEvent host).trans hkept.facts⟩

theorem noteLoop_sound :
    (noteLoop host answers input).Sound (taskLoop host answers input).run.events
      (memoryPositions input).reverse := by
  refine synthesizeNotes_sound _ nodup_positions fun i hi => ?_
  obtain ⟨before, hbefore, htakes⟩ := mem_positions.mp hi
  obtain ⟨after, hafter, hfacts⟩ := taskLoop_event host answers hbefore
  rw [Bool.and_eq_true] at htakes
  exact ⟨after, hafter, hfacts.candidate.trans htakes.2⟩

theorem synthesize_follows {input : PipelineInput} :
    Follows (Synthesized (taskLoop host answers input).tasks (noteLoop host answers input).notes)
      input.events (noteLoop host answers input).run.events := by
  have htasks := taskLoop_sound host answers input
  have hnotes := noteLoop_sound host answers input
  intro i
  cases hbefore : input.events[i]? with
  | none =>
    refine .inl ⟨rfl, ?_⟩
    have hstart : (input.events.map (splitEvent host))[i]? = none := by
      rw [List.getElem?_map, hbefore]
      rfl
    rcases htasks.follows i with ⟨-, hnone⟩ | ⟨event, -, hsome, -, -⟩
    · rcases hnotes.follows i with ⟨-, hnone'⟩ | ⟨event, -, hsome, -, -⟩
      · exact hnone'
      · rw [hnone] at hsome
        exact absurd hsome.symm (Option.some_ne_none _)
    · rw [hstart] at hsome
      exact absurd hsome.symm (Option.some_ne_none _)
  | some before =>
    have hstart : (input.events.map (splitEvent host))[i]? = some (splitEvent host before) := by
      rw [List.getElem?_map, hbefore]
      rfl
    obtain ⟨middle, hmiddle, htaskKept⟩ := htasks.follows.after hstart
    obtain ⟨after, hafter, hnoteKept⟩ := hnotes.follows.after hmiddle
    have hfacts : SameFacts before middle :=
      (sameFacts_splitEvent host).trans htaskKept.facts
    refine .inr ⟨before, after, rfl, hafter, hfacts.trans hnoteKept.facts, ?_, ?_, ?_⟩
    · intro hcandidate
      have hi : i ∈ (memoryPositions input).reverse := by
        rw [List.mem_reverse]
        refine mem_positions.mpr ⟨before, hbefore, ?_⟩
        rw [nonPublishable_eq_false (kind_ne_noise_of_candidate hcandidate), hcandidate]
        rfl
      rw [← (hfacts.trans hnoteKept.facts).eventId]
      exact hnotes.settled i hi after hafter
    · intro hactionable hkind
      have hi : i ∈ (actionPositions input).reverse := by
        rw [List.mem_reverse]
        refine mem_positions.mpr ⟨before, hbefore, ?_⟩
        rw [nonPublishable_eq_false hkind, hactionable]
        rfl
      rw [← hfacts.eventId, hnoteKept.actionDisposition]
      exact htasks.settled i hi middle hmiddle
    · intro hnoise
      have hnot : ∀ takes : AtomicEvent → Bool,
          i ∉ (positions (fun event => !event.kind.isNonPublishable && takes event)
            input.events).reverse := by
        intro takes hmem
        obtain ⟨event, hevent, htakes⟩ := mem_positions.mp (List.mem_reverse.mp hmem)
        rw [hbefore] at hevent
        cases hevent
        rw [Bool.and_eq_true] at htakes
        exact kind_ne_noise_of_publishable htakes.1 hnoise
      have hsame : after = splitEvent host before := by
        rw [hnotes.untouched i (hnot _), htasks.untouched i (hnot _), hstart] at hafter
        exact (Option.some.inj hafter).symm
      rw [hsame]
      exact splitEvent_noise host hnoise

variable {item : Artifact}

theorem notes_sources {input : PipelineInput}
    (h : NoteOf (taskLoop host answers input).run.events item i) :
    ∃ event, input.events[i]? = some event ∧ item.sourceSemanticUnitIds = [event.eventId] := by
  obtain ⟨-, middle, hmiddle, hsources⟩ := h
  obtain ⟨start, hstart, hkept⟩ := (taskLoop_sound host answers input).follows.before hmiddle
  rw [List.getElem?_map] at hstart
  obtain ⟨before, hbefore, rfl⟩ := Option.map_eq_some_iff.mp hstart
  refine ⟨before, hbefore, ?_⟩
  rw [hsources, hkept.facts.eventId, (sameFacts_splitEvent host).eventId]

theorem nodup_of_noteOf {events : List AtomicEvent} (hdistinct : (events.map (·.eventId)).Nodup)
    {notes : List Artifact} {published : List Nat} (hnodup : published.Nodup)
    (h : List.Forall₂ (fun (item : Artifact) (i : Nat) => ∃ event, events[i]? = some event ∧
      item.sourceSemanticUnitIds = [event.eventId]) notes published) :
    (notes.map (·.sourceSemanticUnitIds)).Nodup := by
  induction h with
  | nil => exact List.nodup_nil
  | @cons item i notes published hitem hrest ih =>
    rw [List.nodup_cons] at hnodup
    rw [List.map_cons, List.nodup_cons]
    refine ⟨fun hmem => ?_, ih hnodup.2⟩
    obtain ⟨other, hother, hsame⟩ := List.mem_map.mp hmem
    obtain ⟨event, hevent, hsources⟩ := hitem
    obtain ⟨j, hj, found, hfoundEvent, hfoundSources⟩ := exists_position_of_note hrest hother
    rw [hsources, hfoundSources] at hsame
    have hij := eq_of_positions hdistinct hfoundEvent hevent (List.cons.inj hsame).1
    exact hnodup.1 (hij ▸ hj)

theorem synthesize_sourced {input : PipelineInput} :
    Sourced input.events (taskLoop host answers input).tasks
      (noteLoop host answers input).notes := by
  have hnotes := noteLoop_sound host answers input
  refine ⟨?_, ?_, ?_⟩
  · intro item hitem
    obtain ⟨hkind, i, hi, start, hstart, hsources⟩ :=
      (taskLoop_sound host answers input).items item hitem
    obtain ⟨before, hbefore, htakes⟩ := mem_positions.mp (List.mem_reverse.mp hi)
    rw [List.getElem?_map, hbefore] at hstart
    cases hstart
    rw [Bool.and_eq_true] at htakes
    refine ⟨hkind, before, List.mem_of_getElem? hbefore,
      kind_ne_noise_of_publishable htakes.1, ?_⟩
    rw [hsources, (sameFacts_splitEvent host).eventId]
  · intro item hitem
    obtain ⟨i, hi, hof⟩ := exists_position_of_note hnotes.notes hitem
    obtain ⟨event, hevent, hsources⟩ := notes_sources host answers hof
    obtain ⟨before, hbefore, htakes⟩ :=
      mem_positions.mp (List.mem_reverse.mp (hnotes.published i hi))
    rw [hevent] at hbefore
    cases hbefore
    rw [Bool.and_eq_true] at htakes
    exact ⟨hof.1, event, List.mem_of_getElem? hevent, htakes.2, hsources⟩
  · exact nodup_of_noteOf input.distinct hnotes.nodup
      (hnotes.notes.imp fun item i hof => notes_sources host answers hof)

/-! ## After the validation -/

theorem actionDisposition_of_counter (h : actionCounter event = some .publishedTask)
    (hother : event.disposition ≠ some .task) :
    event.actionDisposition = some .publishedTask := by
  unfold actionCounter at h
  cases hsome : event.actionDisposition with
  | some disposition =>
    rw [hsome] at h
    exact h
  | none =>
    rw [hsome] at h
    cases hdisposition : event.disposition with
    | none =>
      rw [hdisposition] at h
      exact absurd h.symm (Option.some_ne_none _)
    | some disposition =>
      rw [hdisposition] at h hother
      cases disposition
      case task => exact absurd rfl hother
      case intentionallyNonPublishable =>
        dsimp only at h
        split at h <;> exact absurd (Option.some.inj h) (by decide)
      case note => exact absurd h.symm (Option.some_ne_none _)
      all_goals exact absurd (Option.some.inj h) (by decide)

def noteValidation (input : PipelineInput) : Run :=
  (validateAll answers (noteLoop host answers input).run (taskLoop host answers input).tasks).1

def rejectedTasks (input : PipelineInput) : List (Artifact × String) :=
  rejections answers (noteLoop host answers input).run (taskLoop host answers input).tasks

def rejectedNotes (input : PipelineInput) : List (Artifact × String) :=
  rejections answers (noteValidation host answers input) (noteLoop host answers input).notes

def validated (input : PipelineInput) : Run :=
  (validateAll answers (noteValidation host answers input)
    (noteLoop host answers input).notes).1

theorem noteValidation_events {input : PipelineInput} :
    (noteValidation host answers input).events = (noteLoop host answers input).run.events.map
      (markAll (rejectedTasks host answers input)) :=
  validateAll_events answers _ _

theorem validated_events {input : PipelineInput} :
    (validated host answers input).events = (noteValidation host answers input).events.map
      (markAll (rejectedNotes host answers input)) :=
  validateAll_events answers _ _

theorem validated_event {input : PipelineInput} {after : AtomicEvent}
    (hafter : after ∈ (validated host answers input).events) :
    ∃ before ∈ input.events, ∃ synthesized middle,
      Synthesized (taskLoop host answers input).tasks (noteLoop host answers input).notes before
        synthesized ∧
      middle ∈ (noteValidation host answers input).events ∧
      middle = markAll (rejectedTasks host answers input) synthesized ∧
      after = markAll (rejectedNotes host answers input) middle := by
  rw [validated_events] at hafter
  obtain ⟨middle, hmiddle, rfl⟩ := List.mem_map.mp hafter
  have hmiddle' := hmiddle
  rw [noteValidation_events] at hmiddle'
  obtain ⟨synthesized, hsynthesized, rfl⟩ := List.mem_map.mp hmiddle'
  obtain ⟨i, hi⟩ := List.mem_iff_getElem?.mp hsynthesized
  obtain ⟨before, hbefore, hkept⟩ := (synthesize_follows host answers).before hi
  exact ⟨before, List.mem_of_getElem? hbefore, synthesized, _, hkept, hmiddle, rfl, rfl⟩

theorem validated_counted {input : PipelineInput} {after : AtomicEvent}
    (hafter : after ∈ (validated host answers input).events) :
    (eventIsMemoryCandidate after = true → memoryCounter after = after.memoryDisposition ∧
      after.memoryDisposition ≠ none) ∧
    (eventIsActionable after = true → actionCounter after ≠ none ∧
      (actionCounter after = some .publishedTask →
        after.actionDisposition = some .publishedTask)) := by
  obtain ⟨before, -, synthesized, middle, hkept, -, rfl, rfl⟩ :=
    validated_event host answers hafter
  have hmarked := (marked_markAll (rejectedTasks host answers input) synthesized).trans
    (marked_markAll (rejectedNotes host answers input) _)
  have hfacts := hkept.facts.trans hmarked.facts
  constructor
  · intro hcandidate
    rw [hfacts.candidate] at hcandidate
    have hsome := hmarked.memory (hkept.memory hcandidate).1
    obtain ⟨disposition, hdisposition⟩ := Option.ne_none_iff_exists'.mp hsome
    exact ⟨by unfold memoryCounter; rw [hdisposition], hsome⟩
  · intro hactionable
    rw [hfacts.actionable] at hactionable
    by_cases hnoise : before.kind = .noise
    · obtain ⟨hdisposition, -⟩ := hkept.noise hnoise
      have hother : ∀ disposition, disposition = some EventDisposition.task ∨
          disposition = some .note ∨ disposition = none →
          (markAll (rejectedNotes host answers input)
            (markAll (rejectedTasks host answers input) synthesized)).disposition ≠
              disposition := by
        intro disposition hcases heq
        rcases hmarked.disposition with hsame | hrejected
        · rw [hsame, hdisposition] at heq
          rcases hcases with rfl | rfl | rfl <;> exact absurd heq (by decide)
        · rw [hrejected] at heq
          rcases hcases with rfl | rfl | rfl <;> exact absurd heq (by decide)
      refine ⟨fun hnone => ?_, fun hpublished => ?_⟩
      · obtain ⟨-, hbad⟩ := actionCounter_eq_none_iff.mp hnone
        rcases hbad with hbad | hbad
        · exact hother _ (.inr (.inr rfl)) hbad
        · exact hother _ (.inr (.inl rfl)) hbad
      · exact actionDisposition_of_counter hpublished (hother _ (.inl rfl))
    · have hsome := hmarked.action (hkept.action hactionable hnoise).1
      obtain ⟨disposition, hdisposition⟩ := Option.ne_none_iff_exists'.mp hsome
      have hcounter : actionCounter (markAll (rejectedNotes host answers input)
          (markAll (rejectedTasks host answers input) synthesized)) = some disposition := by
        unfold actionCounter
        rw [hdisposition]
      rw [hcounter]
      exact ⟨Option.some_ne_none _, fun heq => hdisposition.trans heq⟩

/-! ## The coverage stage -/

structure Settled (event : AtomicEvent) : Prop where
  memory : eventIsMemoryCandidate event = true → event.memoryDisposition ≠ none
  action : eventIsActionable event = true → event.actionDisposition ≠ none

theorem Settled.not_unpublishedMemory (h : Settled event) : isUnpublishedMemory event = false := by
  rw [Bool.eq_false_iff]
  intro hunpublished
  obtain ⟨hcandidate, hnone⟩ := isUnpublishedMemory_iff.mp hunpublished
  obtain ⟨disposition, hdisposition⟩ := Option.ne_none_iff_exists'.mp (h.memory hcandidate)
  rw [memoryCounter, hdisposition] at hnone
  exact Option.some_ne_none _ hnone

theorem Settled.not_unpublishedAction (h : Settled event) : isUnpublishedAction event = false := by
  rw [Bool.eq_false_iff]
  intro hunpublished
  obtain ⟨hactionable, hnone, -⟩ := isUnpublishedAction_iff.mp hunpublished
  exact h.action hactionable hnone

theorem Settled.settleMemory (h : Settled event) : settleMemory event = event := by
  unfold EventPipeline.settleMemory
  split
  case isTrue hcandidate =>
    obtain ⟨disposition, hdisposition⟩ := Option.ne_none_iff_exists'.mp (h.memory hcandidate)
    have hcounter : memoryCounter event = event.memoryDisposition := by
      rw [memoryCounter, hdisposition]
    rw [hcounter]
  case isFalse => rfl

theorem Settled.settleAction (h : Settled event) : settleAction event = event := by
  unfold EventPipeline.settleAction
  split
  case isTrue hactionable =>
    obtain ⟨disposition, hdisposition⟩ := Option.ne_none_iff_exists'.mp (h.action hactionable)
    have hcounter : actionCounter event = event.actionDisposition := by
      rw [actionCounter, hdisposition]
    rw [hcounter]
  case isFalse => rfl

theorem map_eq_self {events : List AtomicEvent} {pass : AtomicEvent → AtomicEvent}
    (h : ∀ event ∈ events, pass event = event) : events.map pass = events := by
  rw [List.map_congr_left h]
  exact List.map_id events

theorem positions_eq_nil {takes : AtomicEvent → Bool} {events : List AtomicEvent}
    (h : ∀ event ∈ events, takes event = false) : positions takes events = [] := by
  refine List.eq_nil_iff_forall_not_mem.mpr fun i hi => ?_
  obtain ⟨event, hevent, htakes⟩ := mem_positions.mp hi
  rw [h event (List.mem_of_getElem? hevent)] at htakes
  exact Bool.false_ne_true htakes

theorem repair_of_settled {rounds : Nat} {run : Run} (h : ∀ event ∈ run.events, Settled event)
    {tasks notes : List Artifact} :
    repair host answers rounds run tasks notes = (run, tasks, notes) := by
  cases rounds with
  | zero => rfl
  | succ rounds =>
    have hmemory : positionsOf isUnpublishedMemory run = [] :=
      positions_eq_nil fun event hevent => (h event hevent).not_unpublishedMemory
    have haction : positionsOf isUnpublishedAction run = [] :=
      positions_eq_nil fun event hevent => (h event hevent).not_unpublishedAction
    have hany : run.events.any isUnpublishedMemory = false := by
      rw [List.any_eq_false]
      exact fun event hevent => Bool.eq_false_iff.mp (h event hevent).not_unpublishedMemory
    have hnotes : repairNotes host answers run notes = (run, notes) := by
      unfold repairNotes
      rw [hmemory]
    have htasks : repairTasks host answers run tasks = (run, tasks) := by
      unfold repairTasks
      rw [haction]
    rw [repair, hnotes]
    dsimp only
    rw [htasks]
    dsimp only
    rw [if_neg (Bool.eq_false_iff.mp hany)]

def settle (event : AtomicEvent) : AtomicEvent := settleAction (settleMemory event)

theorem sameFacts_settle {event : AtomicEvent} : SameFacts event (settle event) := by
  unfold settle settleAction settleMemory
  split <;> split <;> exact ⟨rfl, rfl, rfl, rfl⟩

theorem settle_memoryDisposition (h : eventIsMemoryCandidate event = true) :
    (settle event).memoryDisposition = memoryCounter event := by
  have hsettled : (settleMemory event).memoryDisposition = memoryCounter event := by
    unfold settleMemory
    rw [if_pos h]
  unfold settle settleAction
  split
  · exact hsettled
  · exact hsettled

theorem actionCounter_settleMemory {event : AtomicEvent} :
    actionCounter (settleMemory event) = actionCounter event := by
  unfold settleMemory
  split <;> rfl

theorem settle_actionDisposition (h : eventIsActionable event = true) :
    (settle event).actionDisposition = actionCounter event := by
  have hactionable : eventIsActionable (settleMemory event) = true := by
    unfold settleMemory
    split <;> exact h
  unfold settle settleAction
  rw [if_pos hactionable]
  exact actionCounter_settleMemory

theorem settled_validated :
    ∀ event ∈ (validated host answers input).events.map settle, Settled event := by
  intro event hevent
  obtain ⟨before, hbefore, rfl⟩ := List.mem_map.mp hevent
  obtain ⟨hmemory, haction⟩ := validated_counted host answers hbefore
  constructor
  · intro hcandidate
    rw [(sameFacts_settle).candidate] at hcandidate
    rw [settle_memoryDisposition hcandidate, (hmemory hcandidate).1]
    exact (hmemory hcandidate).2
  · intro hactionable
    rw [(sameFacts_settle).actionable] at hactionable
    rw [settle_actionDisposition hactionable]
    exact (haction hactionable).1

def publishedTasks (input : PipelineInput) : List Artifact :=
  keptOf answers (noteLoop host answers input).run (taskLoop host answers input).tasks

def publishedNotes (input : PipelineInput) : List Artifact :=
  keptOf answers (noteValidation host answers input) (noteLoop host answers input).notes

theorem repaired_validated {input : PipelineInput} {tasks notes : List Artifact} :
    repaired host answers input (validated host answers input) tasks notes =
      ({ validated host answers input with
          events := (validated host answers input).events.map settle }, tasks, notes) := by
  unfold repaired
  rw [List.map_map]
  exact repair_of_settled host answers (settled_validated host answers input)

def covered (input : PipelineInput) : Covered :=
  coverageStage host answers input (validated host answers input)
    (publishedTasks host answers input) (publishedNotes host answers input)

theorem covered_events {input : PipelineInput} :
    (covered host answers input).events = (validated host answers input).events.map settle := by
  have hsettled := settled_validated host answers input
  unfold covered
  rw [coverageStage_events, repaired_validated]
  dsimp only
  have hmarkMemory : ∀ event ∈ (validated host answers input).events.map settle,
      markUnsupportedMemory event = event := fun event hevent =>
    if_neg (Bool.eq_false_iff.mp (hsettled event hevent).not_unpublishedMemory)
  have hmarkAction : ∀ event ∈ (validated host answers input).events.map settle,
      markUnsupportedAction event = event := fun event hevent =>
    if_neg (Bool.eq_false_iff.mp (hsettled event hevent).not_unpublishedAction)
  rw [map_eq_self hmarkMemory, map_eq_self fun event hevent => (hsettled event hevent).settleMemory,
    map_eq_self hmarkAction, map_eq_self fun event hevent => (hsettled event hevent).settleAction]

theorem coverageStage_artifacts {input : PipelineInput} {run : Run} {tasks notes : List Artifact} :
    (coverageStage host answers input run tasks notes).tasks =
        (repaired host answers input run tasks notes).2.1 ∧
      (coverageStage host answers input run tasks notes).notes =
        (repaired host answers input run tasks notes).2.2 := ⟨rfl, rfl⟩

theorem covered_artifacts {input : PipelineInput} :
    (covered host answers input).tasks = publishedTasks host answers input ∧
      (covered host answers input).notes = publishedNotes host answers input := by
  unfold covered
  obtain ⟨htasks, hnotes⟩ := coverageStage_artifacts host answers
  rw [htasks, hnotes, repaired_validated]
  exact ⟨rfl, rfl⟩

theorem runEventPipeline_eq {input : PipelineInput} (h : input.coverageLedgerEnabled = true) :
    runEventPipeline host answers input =
      { tasks := publishedTasks host answers input
        notes := publishedNotes host answers input
        events := (validated host answers input).events.map settle
        coverage := some (covered host answers input).ledger
        stages := input.stages
        asyncLifecycleErrors := input.asyncLifecycleErrors } := by
  have hstage : coverageStage host answers input (validated host answers input)
      (validateAll answers (noteLoop host answers input).run
        (taskLoop host answers input).tasks).2
      (validateAll answers (noteValidation host answers input)
        (noteLoop host answers input).notes).2 = covered host answers input := by
    rw [validateAll_kept, validateAll_kept]
    rfl
  have hrun : runEventPipeline host answers input =
      { tasks := (covered host answers input).tasks
        notes := (covered host answers input).notes
        events := (covered host answers input).events
        coverage := some (covered host answers input).ledger
        stages := input.stages
        asyncLifecycleErrors := input.asyncLifecycleErrors } := by
    rw [← hstage]
    unfold runEventPipeline
    rw [h]
    rfl
  rw [hrun, (covered_artifacts host answers).1, (covered_artifacts host answers).2,
    covered_events]

/-! ## What the ledger says -/

/-- The events that `memoryPublished` counts. -/
def countedMemory (events : List AtomicEvent) : List AtomicEvent :=
  events.filter fun event =>
    eventIsMemoryCandidate event && memoryCounter event = some .publishedNote

/-- The events that `actionPublished` counts. -/
def countedAction (events : List AtomicEvent) : List AtomicEvent :=
  events.filter fun event =>
    eventIsActionable event && actionCounter event = some .publishedTask

/-- The coverage report of a result counts the events it should: those that are the source of a
note count as published memory, those of a task as published actions. -/
structure TellsTruth (result : EventPipelineResult) (ledger : CoverageLedger) : Prop where
  memoryPublished : ledger.memoryCounts .publishedNote = (countedMemory result.events).length
  actionPublished : ledger.actionCounts .publishedTask = (countedAction result.events).length
  memory : ∀ event ∈ countedMemory result.events,
    ∃ item ∈ result.notes, event.eventId ∈ item.sourceSemanticUnitIds
  action : ∀ event ∈ countedAction result.events,
    ∃ item ∈ result.tasks, event.eventId ∈ item.sourceSemanticUnitIds

theorem covered_counts {input : PipelineInput} :
    (covered host answers input).ledger.memoryCounts .publishedNote =
        (countedMemory ((validated host answers input).events.map settle)).length ∧
      (covered host answers input).ledger.actionCounts .publishedTask =
        (countedAction ((validated host answers input).events.map settle)).length := by
  have hsettled := settled_validated host answers input
  have hevents : (repaired host answers input (validated host answers input)
      (publishedTasks host answers input) (publishedNotes host answers input)).1.events =
        (validated host answers input).events.map settle := by
    rw [repaired_validated]
  have hmarkMemory : ∀ event ∈ (validated host answers input).events.map settle,
      markUnsupportedMemory event = event := fun event hevent =>
    if_neg (Bool.eq_false_iff.mp (hsettled event hevent).not_unpublishedMemory)
  have hmarkAction : ∀ event ∈ (validated host answers input).events.map settle,
      markUnsupportedAction event = event := fun event hevent =>
    if_neg (Bool.eq_false_iff.mp (hsettled event hevent).not_unpublishedAction)
  have hmemory : (covered host answers input).ledger.memoryCounts =
      countOf memoryCounter ((((repaired host answers input (validated host answers input)
        (publishedTasks host answers input) (publishedNotes host answers input)).1.events).map
          markUnsupportedMemory).filter eventIsMemoryCandidate) := rfl
  have haction : (covered host answers input).ledger.actionCounts =
      countOf actionCounter (((((repaired host answers input (validated host answers input)
        (publishedTasks host answers input) (publishedNotes host answers input)).1.events.map
          markUnsupportedMemory).map settleMemory).map markUnsupportedAction).filter
            eventIsActionable) := rfl
  rw [hmemory, haction, hevents, map_eq_self hmarkMemory,
    map_eq_self fun event hevent => (hsettled event hevent).settleMemory, map_eq_self hmarkAction]
  unfold countOf countedMemory countedAction
  rw [List.countP_filter, List.countP_filter, List.countP_eq_length_filter,
    List.countP_eq_length_filter]
  simp only [Bool.and_comm, and_self]

/-- A rejected note leaves no event behind that counts as published: its event stays published
as a task, or a later note took the place of the note. -/
def RejectionsRestore (input : PipelineInput) : Prop :=
  ∀ rejected ∈ rejectedNotes host answers input,
    ∀ event ∈ (noteValidation host answers input).events,
      event.eventId ∈ rejected.1.sourceSemanticUnitIds →
        event.memoryDisposition = some .publishedNote → event.disposition = some .task

def NoPublishedNoise (input : PipelineInput) : Prop :=
  ∀ event ∈ input.events, event.kind = .noise → eventIsActionable event = true →
    event.actionDisposition ≠ some .publishedTask

theorem eq_of_eventId {events : List AtomicEvent}
    (hdistinct : (events.map (·.eventId)).Nodup) {first second : AtomicEvent}
    (hfirst : first ∈ events) (hsecond : second ∈ events)
    (h : first.eventId = second.eventId) : first = second := by
  obtain ⟨i, hi⟩ := List.mem_iff_getElem?.mp hfirst
  obtain ⟨j, hj⟩ := List.mem_iff_getElem?.mp hsecond
  rw [eq_of_positions hdistinct hi hj h, hj] at hi
  exact (Option.some.inj hi).symm

theorem note_source {input : PipelineInput} (h : item ∈ (noteLoop host answers input).notes) :
    item.kind = .note ∧ ∃ event ∈ input.events, eventIsMemoryCandidate event = true ∧
      item.sourceSemanticUnitIds = [event.eventId] :=
  (synthesize_sourced host answers).note item h

theorem rejectedNotes_cases {input : PipelineInput} {event : AtomicEvent} :
    (∀ item ∈ rejectedNotes host answers input,
        event.eventId ∉ item.1.sourceSemanticUnitIds) ∨
      ∃ item ∈ rejectedNotes host answers input, event.eventId ∈ item.1.sourceSemanticUnitIds ∧
        markAll (rejectedNotes host answers input) event =
          markRejected item.1 item.2 event := by
  refine markAll_cases (fun item hitem => ?_) ?_ event
  · obtain ⟨-, source, -, -, hsources⟩ :=
      note_source host answers (mem_of_mem_rejections answers hitem)
    exact ⟨source.eventId, hsources⟩
  · have hsublist := (rejections_sublist answers (noteValidation host answers input)
      (noteLoop host answers input).notes).map (·.sourceSemanticUnitIds)
    rw [List.map_map] at hsublist
    exact hsublist.nodup (synthesize_sourced host answers).nodup

theorem memoryCounter_settle (hcandidate : eventIsMemoryCandidate event = true) :
    memoryCounter (settle event) = some .publishedNote ↔
      memoryCounter event = some .publishedNote := by
  have hsettled := settle_memoryDisposition hcandidate
  constructor
  · intro h
    cases hcounter : memoryCounter event with
    | some disposition =>
      rw [hcounter] at hsettled
      rw [memoryCounter, hsettled] at h
      exact h
    | none =>
      -- an event that no counter took has a disposition that no counter takes
      rw [hcounter] at hsettled
      have hsame : (settle event).disposition = event.disposition := by
        unfold settle settleAction settleMemory
        split <;> split <;> rfl
      unfold memoryCounter at h hcounter
      rw [hsettled, hsame] at h
      cases hmemory : event.memoryDisposition with
      | some disposition =>
        rw [hmemory] at hcounter
        exact absurd hcounter (Option.some_ne_none _)
      | none =>
        rw [hmemory] at hcounter
        exact absurd (hcounter.symm.trans h) (by decide)
  · intro h
    rw [memoryCounter, hsettled, h]

theorem memory_of_restored {input : PipelineInput} (h : RejectionsRestore host answers input)
    (hevent : event ∈ countedMemory ((validated host answers input).events.map settle)) :
    ∃ item ∈ publishedNotes host answers input, event.eventId ∈ item.sourceSemanticUnitIds := by
  obtain ⟨hmem, hcounted⟩ := List.mem_filter.mp hevent
  obtain ⟨after, hafter, rfl⟩ := List.mem_map.mp hmem
  rw [Bool.and_eq_true, decide_eq_true_eq, (sameFacts_settle).candidate] at hcounted
  obtain ⟨hcandidate, hpublished⟩ := hcounted
  rw [memoryCounter_settle hcandidate,
    ((validated_counted host answers hafter).1 hcandidate).1] at hpublished
  obtain ⟨before, -, synthesized, middle, hkept, hmiddle, hmiddleEq, rfl⟩ :=
    validated_event host answers hafter
  have hmarkedTasks := marked_markAll (rejectedTasks host answers input) synthesized
  rw [← hmiddleEq] at hmarkedTasks
  have hmarkedNotes := marked_markAll (rejectedNotes host answers input) middle
  have hfacts := hkept.facts.trans hmarkedTasks.facts
  rw [(hfacts.trans hmarkedNotes.facts).candidate] at hcandidate
  obtain ⟨hsome, hnote⟩ := hkept.memory hcandidate
  have hmiddlePublished := hmarkedNotes.published (hmarkedTasks.memory hsome) hpublished
  obtain ⟨item, hitem, hsources⟩ := hnote (hmarkedTasks.published hsome hmiddlePublished)
  have hid : (settle (markAll (rejectedNotes host answers input) middle)).eventId =
      before.eventId := by
    rw [(sameFacts_settle).eventId, hmarkedNotes.facts.eventId, hfacts.eventId]
  rw [hid]
  rcases rejected_or_kept answers (noteValidation host answers input) hitem with
    ⟨reason, hrejected⟩ | ⟨kept, hkeptMem, hsame⟩
  · exfalso
    have hnamed : middle.eventId ∈ item.sourceSemanticUnitIds := by
      rw [hsources, hfacts.eventId]
      exact List.mem_singleton_self _
    have htask := h (item, reason) hrejected middle hmiddle hnamed hmiddlePublished
    rcases rejectedNotes_cases host answers with hnone | ⟨other, hother, hin, hmark⟩
    · exact hnone (item, reason) hrejected hnamed
    · have hkind := (note_source host answers (mem_of_mem_rejections answers hother)).1
      rw [hmark, markRejected_task hin ⟨hkind, htask⟩] at hpublished
      exact absurd (Option.some.inj hpublished) (by decide)
  · exact ⟨kept, hkeptMem, by rw [hsame, hsources]; exact List.mem_singleton_self _⟩

theorem restored_of_memory {input : PipelineInput}
    (h : ∀ event ∈ countedMemory ((validated host answers input).events.map settle),
      ∃ item ∈ publishedNotes host answers input, event.eventId ∈ item.sourceSemanticUnitIds) :
    RejectionsRestore host answers input := by
  intro rejected hrejected middle hmiddle hnamed hpublished
  by_contra htask
  have hitem := mem_of_mem_rejections answers hrejected
  obtain ⟨hkind, source, hsource, hcandidate, hsources⟩ := note_source host answers hitem
  rw [hsources, List.mem_singleton] at hnamed
  let after := markAll (rejectedNotes host answers input) middle
  have hafter : after ∈ (validated host answers input).events := by
    rw [validated_events]
    exact List.mem_map_of_mem hmiddle
  have hmarkedNotes := marked_markAll (rejectedNotes host answers input) middle
  -- the event is the one that the note was made of
  have hafterCandidate : eventIsMemoryCandidate after = true := by
    obtain ⟨before, hbefore, synthesized, other, hkept, -, hother, hlast⟩ :=
      validated_event host answers hafter
    have hfacts : SameFacts before after := by
      rw [hlast, hother]
      exact (hkept.facts.trans (marked_markAll _ _).facts).trans (marked_markAll _ _).facts
    have hid : before.eventId = source.eventId := by
      rw [← hfacts.eventId, hmarkedNotes.facts.eventId, hnamed]
    rw [hfacts.candidate, eq_of_eventId input.distinct hbefore hsource hid]
    exact hcandidate
  have hafterPublished : after.memoryDisposition = some .publishedNote := by
    rcases rejectedNotes_cases host answers with hnone | ⟨other, hother, hin, hmark⟩
    · exact absurd (by rw [hsources, hnamed]; exact List.mem_singleton_self _)
        (hnone rejected hrejected)
    · obtain ⟨_, _, _, heq⟩ := markRejected_rejected other.2 hin fun hboth => htask hboth.2
      have hlast : after = markRejected other.1 other.2 middle := hmark
      rw [hlast, heq]
      dsimp only
      rw [hpublished]
      rfl
  have hcounter : memoryCounter after = some .publishedNote := by
    rw [((validated_counted host answers hafter).1 hafterCandidate).1, hafterPublished]
  obtain ⟨kept, hkept, hkeptNamed⟩ := h (settle after) (List.mem_filter.mpr
    ⟨List.mem_map_of_mem hafter, by
      rw [(sameFacts_settle).candidate, hafterCandidate, Bool.true_and, decide_eq_true_eq]
      exact (memoryCounter_settle hafterCandidate).mpr hcounter⟩)
  obtain ⟨item, hitem', hsame⟩ := source_of_kept answers hkept
  obtain ⟨-, other, -, -, hotherSources⟩ := note_source host answers hitem'
  rw [hsame, hotherSources, List.mem_singleton, (sameFacts_settle).eventId,
    hmarkedNotes.facts.eventId, hnamed] at hkeptNamed
  refine kept_ne_rejected answers (synthesize_sourced host answers).nodup hrejected hkept ?_
  rw [hsame, hotherSources, hsources, hkeptNamed]

theorem task_source {input : PipelineInput} (h : item ∈ (taskLoop host answers input).tasks) :
    item.kind = .task ∧ ∃ event ∈ input.events, event.kind ≠ .noise ∧
      item.sourceSemanticUnitIds = [event.eventId] :=
  (synthesize_sourced host answers).task item h

theorem actionCounter_settle (hactionable : eventIsActionable event = true)
    (hsome : actionCounter event ≠ none) :
    actionCounter (settle event) = actionCounter event := by
  have hsettled := settle_actionDisposition hactionable
  obtain ⟨disposition, hdisposition⟩ := Option.ne_none_iff_exists'.mp hsome
  rw [hdisposition] at hsettled
  rw [hdisposition, actionCounter, hsettled]

theorem action_of_noPublishedNoise {input : PipelineInput} (h : NoPublishedNoise input)
    (hevent : event ∈ countedAction ((validated host answers input).events.map settle)) :
    ∃ item ∈ publishedTasks host answers input, event.eventId ∈ item.sourceSemanticUnitIds := by
  obtain ⟨hmem, hcounted⟩ := List.mem_filter.mp hevent
  obtain ⟨after, hafter, rfl⟩ := List.mem_map.mp hmem
  rw [Bool.and_eq_true, decide_eq_true_eq, (sameFacts_settle).actionable] at hcounted
  obtain ⟨hactionable, hpublished⟩ := hcounted
  obtain ⟨hsome, hdisposed⟩ := (validated_counted host answers hafter).2 hactionable
  rw [actionCounter_settle hactionable hsome] at hpublished
  have hafterPublished := hdisposed hpublished
  obtain ⟨before, hbefore, synthesized, middle, hkept, -, rfl, rfl⟩ :=
    validated_event host answers hafter
  have hmarkedTasks := marked_markAll (rejectedTasks host answers input) synthesized
  have hmarkedNotes := marked_markAll (rejectedNotes host answers input)
    (markAll (rejectedTasks host answers input) synthesized)
  have hfacts := (hkept.facts.trans hmarkedTasks.facts).trans hmarkedNotes.facts
  rw [hfacts.actionable] at hactionable
  have hmiddlePublished := hmarkedNotes.task hafterPublished
  have hsynthesizedPublished := hmarkedTasks.task hmiddlePublished
  rw [(sameFacts_settle).eventId, hfacts.eventId]
  by_cases hnoise : before.kind = .noise
  · rw [(hkept.noise hnoise).2] at hsynthesizedPublished
    exact absurd hsynthesizedPublished (h before hbefore hnoise hactionable)
  · obtain ⟨item, hitem, hsources⟩ := (hkept.action hactionable hnoise).2 hsynthesizedPublished
    rcases rejected_or_kept answers (noteLoop host answers input).run hitem with
      ⟨reason, hrejected⟩ | ⟨kept, hkeptMem, hsame⟩
    · refine absurd hmiddlePublished (markAll_task ?_ hrejected ?_ ?_)
      · rw [hkept.facts.actionable]
        exact hactionable
      · exact (task_source host answers hitem).1
      · rw [hsources, hkept.facts.eventId]
        exact List.mem_singleton_self _
    · exact ⟨kept, hkeptMem, by rw [hsame, hsources]; exact List.mem_singleton_self _⟩

theorem noPublishedNoise_of_action {input : PipelineInput}
    (h : ∀ event ∈ countedAction ((validated host answers input).events.map settle),
      ∃ item ∈ publishedTasks host answers input, event.eventId ∈ item.sourceSemanticUnitIds) :
    NoPublishedNoise input := by
  intro before hbefore hnoise hactionable hpublished
  obtain ⟨i, hi⟩ := List.mem_iff_getElem?.mp hbefore
  obtain ⟨synthesized, hsynthesized, hkept⟩ := (synthesize_follows host answers).after hi
  -- no artifact has the id of noise
  have hother : ∀ {item : Artifact} {event : AtomicEvent}, event ∈ input.events →
      event.kind ≠ .noise → item.sourceSemanticUnitIds = [event.eventId] →
        before.eventId ∉ item.sourceSemanticUnitIds := by
    intro item event hevent hkind hsources hmem
    rw [hsources, List.mem_singleton] at hmem
    rw [eq_of_eventId input.distinct hbefore hevent hmem] at hnoise
    exact hkind hnoise
  have htasks : markAll (rejectedTasks host answers input) synthesized = synthesized := by
    refine markAll_of_notMem fun item hitem => ?_
    obtain ⟨-, event, hevent, hkind, hsources⟩ :=
      task_source host answers (mem_of_mem_rejections answers hitem)
    rw [hkept.facts.eventId]
    exact hother hevent hkind hsources
  have hnotes : markAll (rejectedNotes host answers input) synthesized = synthesized := by
    refine markAll_of_notMem fun item hitem => ?_
    obtain ⟨-, event, hevent, hcandidate, hsources⟩ :=
      note_source host answers (mem_of_mem_rejections answers hitem)
    rw [hkept.facts.eventId]
    exact hother hevent (kind_ne_noise_of_candidate hcandidate) hsources
  have hafter : synthesized ∈ (validated host answers input).events := by
    rw [validated_events, noteValidation_events]
    refine List.mem_map.mpr ⟨synthesized, List.mem_map.mpr ⟨synthesized, ?_, htasks⟩, hnotes⟩
    exact List.mem_of_getElem? hsynthesized
  have hcounter : actionCounter synthesized = some .publishedTask := by
    rw [actionCounter, (hkept.noise hnoise).2, hpublished]
  have hactionable' : eventIsActionable synthesized = true := by
    rw [hkept.facts.actionable]
    exact hactionable
  obtain ⟨kept, hkeptMem, hnamed⟩ := h (settle synthesized) (List.mem_filter.mpr
    ⟨List.mem_map_of_mem hafter, by
      rw [(sameFacts_settle).actionable, hactionable', Bool.true_and,
        decide_eq_true_eq, actionCounter_settle hactionable'
          (by rw [hcounter]; exact Option.some_ne_none _)]
      exact hcounter⟩)
  obtain ⟨item, hitem, hsame⟩ := source_of_kept answers hkeptMem
  obtain ⟨-, event, hevent, hkind, hsources⟩ := task_source host answers hitem
  rw [hsame, (sameFacts_settle).eventId, hkept.facts.eventId] at hnamed
  exact hother hevent hkind hsources hnamed

def budgetEvent : AtomicEvent where
  eventId := "E_1"
  kind := .fact
  meaning := "The budget is 40000 euros."
  evidence := [⟨1, 1, "The budget is 40000 euros."⟩]
  microBlockIds := ["B1"]
  sequenceIds := [1]

def budgetInput : PipelineInput where
  events := [budgetEvent]
  distinct := List.nodup_singleton _
  blocks := [{ microBlockId := "B1", sequenceIds := [1], text := "[1] The budget is 40000 euros." }]
  stages := requiredStages ++ ["coverage"]

def budgetHost : Host where
  casefold := Text.lower
  casefold_empty := lower_empty
  isWord c := c.isAlphanum || c = '_'
  digest text := text
  cosine _ _ := 0

def budgetAnswers : Answers where
  draftTask _ := none
  draftNote _ := some ⟨"Budget", "budget"⟩
  check _ := .reject ["unrelated_or_ungrounded_evidence", "insufficient_evidence"]

end AiBuddy.EventPipeline
