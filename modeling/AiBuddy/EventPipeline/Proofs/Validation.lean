import AiBuddy.EventPipeline.Proofs.Synthesis

/-!
# What the validation does to the events

A rejected artifact marks the event it was made of. The artifacts of one pass have different
events, so an event is marked once at most.
-/

namespace AiBuddy.EventPipeline

open Conversation

variable (answers : Answers)

/-- The artifacts that are rejected when the validators are asked from `run` on. -/
def rejections : Run → List Artifact → List (Artifact × String)
  | _, [] => []
  | run, item :: rest =>
    match run.outcome answers item with
    | .rejected reason => (item, reason) :: rejections (run.asked answers) rest
    | .kept _ => rejections (run.asked answers) rest

def keptOf : Run → List Artifact → List Artifact
  | _, [] => []
  | run, item :: rest =>
    match run.outcome answers item with
    | .rejected _ => keptOf (run.asked answers) rest
    | .kept item => item :: keptOf (run.asked answers) rest

def markAll (rejected : List (Artifact × String)) (event : AtomicEvent) : AtomicEvent :=
  rejected.foldl (fun event item => markRejected item.1 item.2 event) event

theorem rejections_events (run : Run) (events : List AtomicEvent) (items : List Artifact) :
    rejections answers { run with events } items = rejections answers run items := by
  induction items generalizing run with
  | nil => rfl
  | cons item rest ih =>
    have hrest : rejections answers (({ run with events } : Run).asked answers) rest =
        rejections answers (run.asked answers) rest := ih (run.asked answers)
    rw [rejections, rejections, hrest]
    rfl

theorem keptOf_events (run : Run) (events : List AtomicEvent) (items : List Artifact) :
    keptOf answers { run with events } items = keptOf answers run items := by
  induction items generalizing run with
  | nil => rfl
  | cons item rest ih =>
    have hrest : keptOf answers (({ run with events } : Run).asked answers) rest =
        keptOf answers (run.asked answers) rest := ih (run.asked answers)
    rw [keptOf, keptOf, hrest]
    rfl

theorem validateOne_foldl (items : List Artifact) (run : Run) (kept : List Artifact) :
    (items.foldl (validateOne answers) (run, kept)).1.events =
        run.events.map (markAll (rejections answers run items)) ∧
      (items.foldl (validateOne answers) (run, kept)).2 = kept ++ keptOf answers run items := by
  induction items generalizing run kept with
  | nil => exact ⟨(List.map_id run.events).symm, (List.append_nil kept).symm⟩
  | cons item rest ih =>
    rw [List.foldl_cons]
    have hone : validateOne answers (run, kept) item =
        match run.outcome answers item with
        | .rejected reason =>
          ({ run.asked answers with events := run.events.map (markRejected item reason) }, kept)
        | .kept item => (run.asked answers, kept ++ [item]) := rfl
    rw [hone, rejections, keptOf]
    cases houtcome : run.outcome answers item with
    | rejected reason =>
      dsimp only
      obtain ⟨hevents, hkept⟩ := ih
        { run.asked answers with events := run.events.map (markRejected item reason) } kept
      rw [hevents, hkept, rejections_events, keptOf_events, List.map_map]
      exact ⟨rfl, rfl⟩
    | kept next =>
      dsimp only
      obtain ⟨hevents, hkept⟩ := ih (run.asked answers) (kept ++ [next])
      rw [hevents, hkept, List.append_assoc]
      exact ⟨rfl, rfl⟩

theorem validateAll_events (run : Run) (items : List Artifact) :
    (validateAll answers run items).1.events =
      run.events.map (markAll (rejections answers run items)) :=
  (validateOne_foldl answers items run []).1

theorem validateAll_kept (run : Run) (items : List Artifact) :
    (validateAll answers run items).2 = keptOf answers run items :=
  (validateOne_foldl answers items run []).2

variable {run : Run}

theorem outcome_kept_sources {item next : Artifact} (h : run.outcome answers item = .kept next) :
    next.sourceSemanticUnitIds = item.sourceSemanticUnitIds := by
  unfold Run.outcome at h
  split at h
  · exact Outcome.noConfusion h
  · split at h
    · exact Outcome.noConfusion h
    · cases h
      rfl
    · cases h
      rfl

variable {items : List Artifact}

theorem mem_of_mem_rejections {rejected : Artifact × String}
    (h : rejected ∈ rejections answers run items) : rejected.1 ∈ items := by
  induction items generalizing run with
  | nil => exact absurd h List.not_mem_nil
  | cons item rest ih =>
    rw [rejections] at h
    split at h
    · rcases List.mem_cons.mp h with rfl | hrest
      · exact List.mem_cons_self
      · exact List.mem_cons_of_mem _ (ih hrest)
    · exact List.mem_cons_of_mem _ (ih h)

theorem source_of_kept {kept : Artifact} (h : kept ∈ keptOf answers run items) :
    ∃ item ∈ items, kept.sourceSemanticUnitIds = item.sourceSemanticUnitIds := by
  induction items generalizing run with
  | nil => exact absurd h List.not_mem_nil
  | cons item rest ih =>
    rw [keptOf] at h
    split at h
    · obtain ⟨source, hmem, hsame⟩ := ih h
      exact ⟨source, List.mem_cons_of_mem _ hmem, hsame⟩
    case h_2 next houtcome =>
      rcases List.mem_cons.mp h with rfl | hrest
      · exact ⟨item, List.mem_cons_self, outcome_kept_sources answers houtcome⟩
      · obtain ⟨source, hmem, hsame⟩ := ih hrest
        exact ⟨source, List.mem_cons_of_mem _ hmem, hsame⟩

theorem rejected_or_kept (run : Run) {item : Artifact} (h : item ∈ items) :
    (∃ reason, (item, reason) ∈ rejections answers run items) ∨
      ∃ kept ∈ keptOf answers run items,
        kept.sourceSemanticUnitIds = item.sourceSemanticUnitIds := by
  induction items generalizing run with
  | nil => exact absurd h List.not_mem_nil
  | cons first rest ih =>
    rw [rejections, keptOf]
    rcases List.mem_cons.mp h with rfl | hrest
    · cases houtcome : run.outcome answers item with
      | rejected reason => exact .inl ⟨reason, List.mem_cons_self⟩
      | kept next =>
        exact .inr ⟨next, List.mem_cons_self, outcome_kept_sources answers houtcome⟩
    · have htail := ih (run.asked answers) hrest
      cases run.outcome answers first with
      | rejected reason =>
        rcases htail with ⟨other, hmem⟩ | hkept
        · exact .inl ⟨other, List.mem_cons_of_mem _ hmem⟩
        · exact .inr hkept
      | kept next =>
        rcases htail with hrejected | ⟨kept, hmem, hsame⟩
        · exact .inl hrejected
        · exact .inr ⟨kept, List.mem_cons_of_mem _ hmem, hsame⟩

theorem kept_ne_rejected (hnodup : (items.map (·.sourceSemanticUnitIds)).Nodup)
    {rejected : Artifact × String} (hrejected : rejected ∈ rejections answers run items)
    {kept : Artifact} (hkept : kept ∈ keptOf answers run items) :
    kept.sourceSemanticUnitIds ≠ rejected.1.sourceSemanticUnitIds := by
  induction items generalizing run with
  | nil => exact absurd hkept List.not_mem_nil
  | cons item rest ih =>
    rw [List.map_cons, List.nodup_cons] at hnodup
    rw [rejections] at hrejected
    rw [keptOf] at hkept
    cases houtcome : run.outcome answers item with
    | rejected reason =>
      rw [houtcome] at hrejected hkept
      rcases List.mem_cons.mp hrejected with rfl | hrest
      · obtain ⟨source, hmem, hsame⟩ := source_of_kept answers hkept
        rw [hsame]
        exact fun heq => hnodup.1 (List.mem_map.mpr ⟨source, hmem, heq⟩)
      · exact ih hnodup.2 hrest hkept
    | kept next =>
      rw [houtcome] at hrejected hkept
      rcases List.mem_cons.mp hkept with rfl | hrest
      · rw [outcome_kept_sources answers houtcome]
        exact fun heq => hnodup.1
          (List.mem_map.mpr ⟨rejected.1, mem_of_mem_rejections answers hrejected, heq.symm⟩)
      · exact ih hnodup.2 hrejected hrest

theorem rejections_sublist (run : Run) (items : List Artifact) :
    ((rejections answers run items).map (·.1)).Sublist items := by
  induction items generalizing run with
  | nil => exact .slnil
  | cons item rest ih =>
    rw [rejections]
    split
    · exact (ih _).cons_cons item
    · exact (ih _).cons item

variable {item : Artifact} {reason : String} {event : AtomicEvent}

theorem markRejected_of_notMem (h : event.eventId ∉ item.sourceSemanticUnitIds) :
    markRejected item reason event = event := if_pos h

theorem markRejected_task (h : event.eventId ∈ item.sourceSemanticUnitIds)
    (htask : item.kind = .note ∧ event.disposition = some .task) :
    markRejected item reason event =
      { event with
        memoryDisposition := some .rejectedWithReason
        memoryDispositionReason := reason } := by
  unfold markRejected
  rw [if_neg (not_not.mpr h), if_pos htask]

variable (reason) in
theorem markRejected_rejected (h : event.eventId ∈ item.sourceSemanticUnitIds)
    (hother : ¬ (item.kind = .note ∧ event.disposition = some .task)) :
    ∃ why whyMemory whyAction, markRejected item reason event =
      { event with
        disposition := some .rejected
        dispositionReason := why
        memoryDisposition := some (event.memoryDisposition.getD .rejectedWithReason)
        memoryDispositionReason := whyMemory
        actionDisposition :=
          if eventIsActionable event then some .validationRejected else event.actionDisposition
        actionDispositionReason := whyAction } := by
  unfold markRejected
  rw [if_neg (not_not.mpr h), if_neg hother]
  cases hmemory : event.memoryDisposition with
  | none =>
    dsimp only
    rw [if_pos rfl]
    cases hactionable : eventIsActionable event with
    | true => exact ⟨_, _, _, rfl⟩
    | false => exact ⟨_, _, _, rfl⟩
  | some disposition =>
    dsimp only
    rw [if_neg (Option.some_ne_none _)]
    cases hactionable : eventIsActionable event with
    | true => exact ⟨_, _, _, by rw [Option.getD_some, ← hmemory]; rfl⟩
    | false => exact ⟨_, _, _, by rw [Option.getD_some, ← hmemory]; rfl⟩

structure Marked (before after : AtomicEvent) : Prop where
  facts : SameFacts before after
  memory : before.memoryDisposition ≠ none → after.memoryDisposition ≠ none
  published : before.memoryDisposition ≠ none → after.memoryDisposition = some .publishedNote →
    before.memoryDisposition = some .publishedNote
  action : before.actionDisposition ≠ none → after.actionDisposition ≠ none
  task : after.actionDisposition = some .publishedTask →
    before.actionDisposition = some .publishedTask
  disposition : after.disposition = before.disposition ∨ after.disposition = some .rejected

theorem Marked.refl (event : AtomicEvent) : Marked event event :=
  ⟨.refl event, id, fun _ => id, id, id, .inl rfl⟩

theorem Marked.trans {first second third : AtomicEvent} (h : Marked first second)
    (h' : Marked second third) : Marked first third :=
  ⟨h.facts.trans h'.facts, fun hfirst => h'.memory (h.memory hfirst),
    fun hfirst hthird => h.published hfirst (h'.published (h.memory hfirst) hthird),
    fun hfirst => h'.action (h.action hfirst), fun hthird => h.task (h'.task hthird),
    h'.disposition.elim (fun heq => h.disposition.imp (heq.trans) heq.trans) .inr⟩

theorem marked_markRejected (item : Artifact) (reason : String) (event : AtomicEvent) :
    Marked event (markRejected item reason event) := by
  by_cases hmem : event.eventId ∈ item.sourceSemanticUnitIds
  · by_cases htask : item.kind = .note ∧ event.disposition = some .task
    · rw [markRejected_task hmem htask]
      exact ⟨⟨rfl, rfl, rfl, rfl⟩, fun _ => Option.some_ne_none _,
        fun _ h => absurd (Option.some.inj h) (by decide), id, id, .inl rfl⟩
    · obtain ⟨_, _, _, h⟩ := markRejected_rejected reason hmem htask
      rw [h]
      refine ⟨⟨rfl, rfl, rfl, rfl⟩, fun _ => Option.some_ne_none _, ?_, ?_, ?_, .inr rfl⟩
      · intro hsome heq
        obtain ⟨disposition, hdisposition⟩ := Option.ne_none_iff_exists'.mp hsome
        rw [hdisposition, Option.getD_some] at heq
        exact hdisposition.trans heq
      · intro hsome
        dsimp only
        split
        · exact Option.some_ne_none _
        · exact hsome
      · dsimp only
        split
        · exact fun heq => absurd (Option.some.inj heq) (by decide)
        · exact id
  · rw [markRejected_of_notMem hmem]
    exact .refl event

theorem marked_markAll (rejected : List (Artifact × String)) (event : AtomicEvent) :
    Marked event (markAll rejected event) := by
  induction rejected generalizing event with
  | nil => exact .refl event
  | cons first rest ih => exact (marked_markRejected first.1 first.2 event).trans (ih _)

variable {rejected : List (Artifact × String)}

theorem markAll_of_notMem {event : AtomicEvent}
    (h : ∀ item ∈ rejected, event.eventId ∉ item.1.sourceSemanticUnitIds) :
    markAll rejected event = event := by
  induction rejected with
  | nil => rfl
  | cons first rest ih =>
    rw [List.forall_mem_cons] at h
    unfold markAll
    rw [List.foldl_cons, markRejected_of_notMem h.1]
    exact ih h.2

theorem markAll_cases (hsources : ∀ item ∈ rejected, ∃ id, item.1.sourceSemanticUnitIds = [id])
    (hnodup : (rejected.map (·.1.sourceSemanticUnitIds)).Nodup) (event : AtomicEvent) :
    (∀ item ∈ rejected, event.eventId ∉ item.1.sourceSemanticUnitIds) ∨
      ∃ item ∈ rejected, event.eventId ∈ item.1.sourceSemanticUnitIds ∧
        markAll rejected event = markRejected item.1 item.2 event := by
  induction rejected with
  | nil => exact .inl (List.forall_mem_nil _)
  | cons first rest ih =>
    rw [List.map_cons, List.nodup_cons] at hnodup
    have hsourcesRest := fun item hitem => hsources item (List.mem_cons_of_mem _ hitem)
    by_cases hfirst : event.eventId ∈ first.1.sourceSemanticUnitIds
    · refine .inr ⟨first, List.mem_cons_self, hfirst, ?_⟩
      have hrest : ∀ item ∈ rest, (markRejected first.1 first.2 event).eventId ∉
          item.1.sourceSemanticUnitIds := by
        intro item hitem hmem
        rw [(marked_markRejected first.1 first.2 event).facts.eventId] at hmem
        obtain ⟨id, hid⟩ := hsources first List.mem_cons_self
        obtain ⟨other, hother⟩ := hsourcesRest item hitem
        rw [hid, List.mem_singleton] at hfirst
        rw [hother, List.mem_singleton] at hmem
        refine hnodup.1 (List.mem_map.mpr ⟨item, hitem, ?_⟩)
        rw [hother, hid, ← hmem, ← hfirst]
      unfold markAll
      rw [List.foldl_cons]
      exact markAll_of_notMem hrest
    · rcases ih hsourcesRest hnodup.2 with hnone | ⟨item, hitem, hmem, hmark⟩
      · exact .inl (List.forall_mem_cons.mpr ⟨hfirst, hnone⟩)
      · refine .inr ⟨item, List.mem_cons_of_mem _ hitem, hmem, ?_⟩
        rw [← hmark]
        unfold markAll
        rw [List.foldl_cons, markRejected_of_notMem hfirst]

theorem markAll_task {event : AtomicEvent} (hactionable : eventIsActionable event = true)
    {item : Artifact × String} (hitem : item ∈ rejected) (hkind : item.1.kind = .task)
    (hmem : event.eventId ∈ item.1.sourceSemanticUnitIds) :
    (markAll rejected event).actionDisposition ≠ some .publishedTask := by
  induction rejected generalizing event with
  | nil => exact absurd hitem List.not_mem_nil
  | cons first rest ih =>
    have hfirst := marked_markRejected first.1 first.2 event
    rcases List.mem_cons.mp hitem with rfl | hrest
    · intro hpublished
      have hmarked := (marked_markAll rest (markRejected item.1 item.2 event)).task hpublished
      have hother : ¬ (item.1.kind = .note ∧ event.disposition = some .task) := by
        rw [hkind]
        exact fun h => absurd h.1 (by decide)
      obtain ⟨_, _, _, heq⟩ := markRejected_rejected item.2 hmem hother
      rw [heq] at hmarked
      dsimp only at hmarked
      rw [if_pos hactionable] at hmarked
      exact absurd (Option.some.inj hmarked) (by decide)
    · refine ih ?_ hrest ?_
      · rw [hfirst.facts.actionable]
        exact hactionable
      · rw [hfirst.facts.eventId]
        exact hmem

end AiBuddy.EventPipeline
