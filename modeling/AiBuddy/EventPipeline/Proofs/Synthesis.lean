import AiBuddy.EventPipeline.Synthesis

/-!
# What the synthesis leaves behind

Once a pass over a channel is done, every event of the channel has a disposition, and one that
is marked as published is the source of an artifact.
-/

namespace AiBuddy.EventPipeline

open Conversation

variable {host : Host} {answers : Answers}

structure SameFacts (before after : AtomicEvent) : Prop where
  eventId : after.eventId = before.eventId
  kind : after.kind = before.kind
  actionSignal : after.actionSignal = before.actionSignal
  memorySignal : after.memorySignal = before.memorySignal

theorem SameFacts.refl (event : AtomicEvent) : SameFacts event event := ⟨rfl, rfl, rfl, rfl⟩

theorem SameFacts.trans {first second third : AtomicEvent} (h : SameFacts first second)
    (h' : SameFacts second third) : SameFacts first third :=
  ⟨h'.eventId.trans h.eventId, h'.kind.trans h.kind, h'.actionSignal.trans h.actionSignal,
    h'.memorySignal.trans h.memorySignal⟩

theorem SameFacts.candidate {before after : AtomicEvent} (h : SameFacts before after) :
    eventIsMemoryCandidate after = eventIsMemoryCandidate before := by
  unfold eventIsMemoryCandidate
  rw [h.kind, h.memorySignal]

theorem SameFacts.actionable {before after : AtomicEvent} (h : SameFacts before after) :
    eventIsActionable after = eventIsActionable before := by
  unfold eventIsActionable
  rw [h.kind, h.actionSignal]

theorem sameFacts_setActionDisposition {event : AtomicEvent} {disposition : ActionDisposition}
    {reason : String} : SameFacts event (setActionDisposition event disposition reason) := by
  obtain ⟨_, _, _, h⟩ := setActionDisposition_frame event disposition reason
  rw [h]
  exact ⟨rfl, rfl, rfl, rfl⟩

theorem memoryDisposition_setActionDisposition {event : AtomicEvent}
    {disposition : ActionDisposition} {reason : String} :
    (setActionDisposition event disposition reason).memoryDisposition =
      event.memoryDisposition := by
  obtain ⟨_, _, _, h⟩ := setActionDisposition_frame event disposition reason
  rw [h]

variable {events : List AtomicEvent} {i : Nat}

theorem getElem?_modify_of_ne {j : Nat} {change : AtomicEvent → AtomicEvent} (h : i ≠ j) :
    (events.modify i change)[j]? = events[j]? := by
  rw [List.getElem?_modify]
  simp [h]

variable {event : AtomicEvent}

theorem getElem?_modify_self {change : AtomicEvent → AtomicEvent} (h : events[i]? = some event) :
    (events.modify i change)[i]? = some (change event) := by
  rw [List.getElem?_modify, h]
  simp

def Follows (kept : AtomicEvent → AtomicEvent → Prop) (start events : List AtomicEvent) : Prop :=
  ∀ i : Nat, (start[i]? = none ∧ events[i]? = none) ∨
    ∃ before after, start[i]? = some before ∧ events[i]? = some after ∧ kept before after

variable {kept : AtomicEvent → AtomicEvent → Prop}

theorem Follows.refl (hrefl : ∀ e, kept e e) (events : List AtomicEvent) :
    Follows kept events events := by
  intro i
  cases h : events[i]? with
  | none => exact .inl ⟨rfl, rfl⟩
  | some event => exact .inr ⟨event, event, rfl, rfl, hrefl event⟩

variable {start : List AtomicEvent}

theorem Follows.before (h : Follows kept start events) {after : AtomicEvent}
    (hafter : events[i]? = some after) : ∃ before, start[i]? = some before ∧ kept before after := by
  rcases h i with ⟨-, hnone⟩ | ⟨before, after', hbefore, hafter', hkept⟩
  · rw [hafter] at hnone
    exact absurd hnone (Option.some_ne_none _)
  · rw [hafter] at hafter'
    cases hafter'
    exact ⟨before, hbefore, hkept⟩

theorem Follows.after (h : Follows kept start events) {before : AtomicEvent}
    (hbefore : start[i]? = some before) : ∃ after, events[i]? = some after ∧ kept before after := by
  rcases h i with ⟨hnone, -⟩ | ⟨before', after, hbefore', hafter, hkept⟩
  · rw [hbefore] at hnone
    exact absurd hnone (Option.some_ne_none _)
  · rw [hbefore] at hbefore'
    cases hbefore'
    exact ⟨after, hafter, hkept⟩

theorem Follows.modify (h : Follows kept start events) {change : AtomicEvent → AtomicEvent}
    (hchange : ∀ before after, events[i]? = some after → kept before after →
      kept before (change after)) :
    Follows kept start (events.modify i change) := by
  intro j
  by_cases hij : i = j
  · subst hij
    rcases h i with ⟨hstart, hnone⟩ | ⟨before, after, hbefore, hafter, hkept⟩
    · exact .inl ⟨hstart, by rw [List.getElem?_modify, hnone]; rfl⟩
    · exact .inr ⟨before, change after, hbefore, getElem?_modify_self hafter,
        hchange before after hafter hkept⟩
  · rw [getElem?_modify_of_ne hij]
    exact h j

theorem actionSynthesisAbstainDisposition_ne {event : AtomicEvent} :
    (actionSynthesisAbstainDisposition host event).1 ≠ .publishedTask := by
  unfold actionSynthesisAbstainDisposition
  split
  · exact by decide
  · split
    · exact by decide
    · split
      · exact by decide
      · split <;> exact by decide

theorem TaskLoop.step_cases (loop : TaskLoop) (i : Nat) :
    (loop.run.events[i]? = none ∧ loop.step host answers i = loop) ∨
      ∃ event, loop.run.events[i]? = some event ∧
        ((∃ disposition reason, disposition ≠ .publishedTask ∧
            (loop.step host answers i).run.events =
              loop.run.events.modify i (setActionDisposition · disposition reason) ∧
            (loop.step host answers i).tasks = loop.tasks) ∨
          ∃ item, item.kind = .task ∧ item.sourceSemanticUnitIds = [event.eventId] ∧
            (loop.step host answers i).run.events =
              loop.run.events.modify i (setActionDisposition · .publishedTask "published") ∧
            (loop.step host answers i).tasks = loop.tasks ++ [item]) := by
  unfold TaskLoop.step
  cases hevent : loop.run.events[i]? with
  | none => exact .inl ⟨rfl, rfl⟩
  | some event =>
    refine .inr ⟨event, rfl, ?_⟩
    dsimp only
    split
    case isTrue =>
      exact .inl ⟨.intentionallyNonpublishable, "noise", by decide, rfl, rfl⟩
    case isFalse =>
      split
      case h_1 =>
        exact .inl ⟨_, _, actionSynthesisAbstainDisposition_ne, rfl, rfl⟩
      case h_2 draft hdraft =>
        split
        case isTrue =>
          exact .inl ⟨.duplicate, "duplicate_action_identity", by decide, rfl, rfl⟩
        case isFalse =>
          split
          case isTrue =>
            exact .inl ⟨.duplicate, "duplicate_task_fingerprint", by decide, rfl, rfl⟩
          case isFalse =>
            exact .inr ⟨artifactOf .task event draft, rfl, rfl, rfl, rfl⟩

structure TaskKept (before after : AtomicEvent) : Prop where
  facts : SameFacts before after
  memoryDisposition : after.memoryDisposition = before.memoryDisposition

/-- The loop over the actions, when it has seen some positions of `start`. -/
structure TaskLoop.Sound (start : List AtomicEvent) (done : List Nat) (loop : TaskLoop) :
    Prop where
  follows : Follows TaskKept start loop.run.events
  untouched : ∀ i, i ∉ done → loop.run.events[i]? = start[i]?
  settled : ∀ i ∈ done, ∀ event, loop.run.events[i]? = some event →
    event.actionDisposition ≠ none ∧ (event.actionDisposition = some .publishedTask →
      ∃ item ∈ loop.tasks, item.sourceSemanticUnitIds = [event.eventId])
  items : ∀ item ∈ loop.tasks, item.kind = .task ∧
    ∃ i ∈ done, ∃ event, start[i]? = some event ∧ item.sourceSemanticUnitIds = [event.eventId]

variable {done : List Nat}

theorem TaskLoop.Sound.step {loop : TaskLoop} (h : loop.Sound start done) (i : Nat) :
    (loop.step host answers i).Sound start (i :: done) := by
  -- what the change of one position does to the others
  have hmarked : ∀ (disposition : ActionDisposition) (reason : String)
      (event : AtomicEvent), loop.run.events[i]? = some event →
      ∀ (next : TaskLoop),
      next.run.events = loop.run.events.modify i (setActionDisposition · disposition reason) →
      (∀ item ∈ loop.tasks, item ∈ next.tasks) →
      (disposition = .publishedTask →
        ∃ item ∈ next.tasks, item.sourceSemanticUnitIds = [event.eventId]) →
      (∀ item ∈ next.tasks, item ∈ loop.tasks ∨
        item.kind = .task ∧ item.sourceSemanticUnitIds = [event.eventId]) →
      next.Sound start (i :: done) := by
    intro disposition reason event hevent next hevents hmore hpublished hitems
    refine ⟨?_, ?_, ?_, ?_⟩
    · rw [hevents]
      refine h.follows.modify fun before after _ hkept => ⟨?_, ?_⟩
      · exact hkept.facts.trans sameFacts_setActionDisposition
      · exact (memoryDisposition_setActionDisposition).trans
          hkept.memoryDisposition
    · intro j hj
      rw [hevents, getElem?_modify_of_ne (ne_of_mem_of_not_mem List.mem_cons_self hj)]
      exact h.untouched j fun hmem => hj (List.mem_cons_of_mem _ hmem)
    · intro j hj after hafter
      rw [hevents] at hafter
      by_cases hij : i = j
      · subst hij
        rw [getElem?_modify_self hevent] at hafter
        cases hafter
        rw [setActionDisposition_actionDisposition]
        refine ⟨Option.some_ne_none _, fun heq => ?_⟩
        rw [(sameFacts_setActionDisposition).eventId]
        exact hpublished (Option.some.inj heq)
      · rw [getElem?_modify_of_ne hij] at hafter
        have hdone := (List.mem_cons.mp hj).resolve_left fun heq => hij heq.symm
        obtain ⟨hsome, hitem⟩ := h.settled j hdone after hafter
        refine ⟨hsome, fun heq => ?_⟩
        obtain ⟨item, hmem, hsources⟩ := hitem heq
        exact ⟨item, hmore item hmem, hsources⟩
    · intro item hitem
      rcases hitems item hitem with hold | ⟨hkind, hsources⟩
      · obtain ⟨hkind, j, hj, before, hbefore, hsources⟩ := h.items item hold
        exact ⟨hkind, j, List.mem_cons_of_mem _ hj, before, hbefore, hsources⟩
      · obtain ⟨before, hbefore, hkept⟩ := h.follows.before hevent
        rw [hkept.facts.eventId] at hsources
        exact ⟨hkind, i, List.mem_cons_self, before, hbefore, hsources⟩
  rcases TaskLoop.step_cases loop i with ⟨hnone, hsame⟩ | ⟨event, hevent, hcases⟩
  · rw [hsame]
    refine ⟨h.follows, fun j hj => h.untouched j fun hmem => hj (List.mem_cons_of_mem _ hmem),
      ?_, ?_⟩
    · intro j hj after hafter
      refine h.settled j ((List.mem_cons.mp hj).resolve_left ?_) after hafter
      rintro rfl
      rw [hnone] at hafter
      exact Option.some_ne_none _ hafter.symm
    · intro item hitem
      obtain ⟨hkind, j, hj, hrest⟩ := h.items item hitem
      exact ⟨hkind, j, List.mem_cons_of_mem _ hj, hrest⟩
  · rcases hcases with ⟨disposition, reason, hne, hevents, htasks⟩ |
      ⟨item, hkind, hsources, hevents, htasks⟩
    · refine hmarked disposition reason event hevent _ hevents ?_ (fun heq => absurd heq hne) ?_
      · rw [htasks]
        exact fun _ hitem => hitem
      · rw [htasks]
        exact fun _ hitem => .inl hitem
    · refine hmarked .publishedTask "published" event hevent _ hevents ?_ (fun _ => ?_) ?_
      · rw [htasks]
        exact fun _ hitem => List.mem_append_left _ hitem
      · exact ⟨item, htasks ▸ List.mem_append_right _ List.mem_cons_self, hsources⟩
      · intro other hother
        rw [htasks] at hother
        rcases List.mem_append.mp hother with hold | hnew
        · exact .inl hold
        · rw [List.mem_singleton.mp hnew]
          exact .inr ⟨hkind, hsources⟩

variable (host answers) in
theorem TaskLoop.Sound.foldl (positions : List Nat) {loop : TaskLoop} (h : loop.Sound start done) :
    (positions.foldl (TaskLoop.step host answers) loop).Sound start
      (positions.reverse ++ done) := by
  induction positions generalizing done loop with
  | nil => exact h
  | cons i rest ih =>
    rw [List.foldl_cons, List.reverse_cons, List.append_assoc]
    exact ih (h.step i)

theorem synthesizeTasks_sound (run : Run) (actions : List Nat) :
    (synthesizeTasks host answers run actions).Sound run.events actions.reverse := by
  have hstart : TaskLoop.Sound run.events [] { run } :=
    ⟨Follows.refl (fun e => ⟨.refl e, rfl⟩) _, fun _ _ => rfl,
      fun i hi => absurd hi List.not_mem_nil, fun item hitem => absurd hitem List.not_mem_nil⟩
  have hrun := TaskLoop.Sound.foldl host answers actions hstart
  rwa [List.append_nil] at hrun

structure NoteKept (before after : AtomicEvent) : Prop where
  facts : SameFacts before after
  actionDisposition : after.actionDisposition = before.actionDisposition

theorem NoteKept.refl (event : AtomicEvent) : NoteKept event event := ⟨.refl event, rfl⟩

theorem NoteKept.trans {first second third : AtomicEvent} (h : NoteKept first second)
    (h' : NoteKept second third) : NoteKept first third :=
  ⟨h.facts.trans h'.facts, h'.actionDisposition.trans h.actionDisposition⟩

structure Withholds (event : AtomicEvent) (change : AtomicEvent → AtomicEvent) : Prop where
  kept : ∀ other, NoteKept other (change other)
  disposition : ∃ disposition, disposition ≠ .publishedNote ∧
    (change event).memoryDisposition = some disposition

theorem noteKept_setLowValue {event : AtomicEvent} : NoteKept event (setLowValue event) := by
  unfold setLowValue
  dsimp only
  split <;> exact ⟨⟨rfl, rfl, rfl, rfl⟩, rfl⟩

theorem memoryDisposition_setLowValue {event : AtomicEvent} :
    (setLowValue event).memoryDisposition = some .lowValue := by
  unfold setLowValue
  dsimp only
  split <;> rfl

theorem lowValue_of_not_publishable (hcandidate : eventIsMemoryCandidate event = true)
    (h : eventIsPublishableMemory event = false) :
    memoryImportance event = "LOW" ∨
      event.memorySignal.any fun signal => !signal.isMemoryWorthy := by
  unfold eventIsPublishableMemory at h
  rw [hcandidate, Bool.true_and] at h
  cases hsignal : event.memorySignal with
  | none =>
    rw [hsignal] at h
    unfold eventIsMemoryCandidate at hcandidate
    rw [hsignal] at hcandidate
    simp [h] at hcandidate
  | some signal =>
    rw [hsignal] at h
    dsimp only at h
    by_cases hworthy : signal.isMemoryWorthy = true
    · rw [hworthy, Bool.true_and, decide_eq_false_iff_not, not_not] at h
      exact .inl h
    · refine .inr ?_
      rw [Option.any_some, Bool.not_eq_true', Bool.eq_false_iff]
      exact hworthy

theorem withholds_setNotPublishable (hcandidate : eventIsMemoryCandidate event = true)
    (h : eventIsPublishableMemory event = false) : Withholds event setNotPublishable := by
  constructor
  · intro other
    unfold setNotPublishable
    split
    · exact noteKept_setLowValue
    · split
      · exact noteKept_setLowValue
      · exact .refl other
  · refine ⟨.lowValue, by decide, ?_⟩
    unfold setNotPublishable
    rw [if_pos (lowValue_of_not_publishable hcandidate h)]
    exact memoryDisposition_setLowValue

theorem withholds_setDuplicateIdentity {event : AtomicEvent} :
    Withholds event setDuplicateIdentity :=
  ⟨fun _ => ⟨⟨rfl, rfl, rfl, rfl⟩, rfl⟩, .duplicate, by decide, rfl⟩

theorem withholds_setAbstained {event : AtomicEvent} : Withholds event setAbstained := by
  constructor
  · intro other
    unfold setAbstained
    split <;> exact ⟨⟨rfl, rfl, rfl, rfl⟩, rfl⟩
  · refine ⟨.unsupported, by decide, ?_⟩
    unfold setAbstained
    split <;> rfl

theorem withholds_setDuplicateNote {event : AtomicEvent} : Withholds event setDuplicateNote := by
  constructor
  · intro other
    unfold setDuplicateNote
    split <;> exact ⟨⟨rfl, rfl, rfl, rfl⟩, rfl⟩
  · refine ⟨.duplicate, by decide, ?_⟩
    unfold setDuplicateNote
    split <;> rfl

theorem withholds_setSuperseded {event : AtomicEvent} : Withholds event setSuperseded := by
  constructor
  · intro other
    unfold setSuperseded
    dsimp only
    split <;> exact ⟨⟨rfl, rfl, rfl, rfl⟩, rfl⟩
  · refine ⟨.superseded, by decide, ?_⟩
    unfold setSuperseded
    dsimp only
    split <;> rfl

theorem noteKept_setPublishedNote (prior : Option EventDisposition)
    (relation : Option MemoryRelation) (event : AtomicEvent) :
    NoteKept event (setPublishedNote prior relation event) := by
  unfold setPublishedNote
  dsimp only
  split <;> exact ⟨⟨rfl, rfl, rfl, rfl⟩, rfl⟩

theorem foldl_picked {α β : Type} {pick : Option β → α → Option β} (came : β → α → Prop)
    (hstep : ∀ best item found, pick best item = some found →
      best = some found ∨ came found item) (items : List α) (best : Option β) (found : β)
    (h : items.foldl pick best = some found) :
    best = some found ∨ ∃ item ∈ items, came found item := by
  induction items generalizing best with
  | nil => exact .inl h
  | cons item items ih =>
    rcases ih (pick best item) h with hpick | ⟨last, hlast, hcame⟩
    · rcases hstep best item found hpick with hold | hnew
      · exact .inl hold
      · exact .inr ⟨item, List.mem_cons_self, hnew⟩
    · exact .inr ⟨last, List.mem_cons_of_mem _ hlast, hcame⟩

theorem findMemoryRelation_mem {published : List (Nat × AtomicEvent)} {relation : MemoryRelation}
    {j : Nat} (h : findMemoryRelation host event published = some (relation, j)) :
    ∃ other, (j, other) ∈ published := by
  obtain ⟨found, hfound, hrest⟩ := Option.map_eq_some_iff.mp h
  have hpicked := foldl_picked (fun found other => found.2.2 = other.1) ?_ published none found
    hfound
  · rcases hpicked with hnone | ⟨other, hmem, hj⟩
    · exact absurd hnone.symm (Option.some_ne_none _)
    · rw [hrest] at hj
      obtain rfl : j = other.1 := hj
      exact ⟨other.2, hmem⟩
  · intro best other found hpick
    dsimp only at hpick
    split at hpick
    · exact .inl hpick
    · split at hpick
      · cases hpick
        exact .inr rfl
      · split at hpick
        · cases hpick
          exact .inr rfl
        · exact .inl hpick

theorem NoteLoop.step_cases (loop : NoteLoop) (i : Nat)
    (hevent : loop.run.events[i]? = some event) (hcandidate : eventIsMemoryCandidate event = true) :
    (∃ change, Withholds event change ∧
        (loop.step host answers i).run.events = loop.run.events.modify i change ∧
        (loop.step host answers i).notes = loop.notes ∧
        (loop.step host answers i).published = loop.published) ∨
      ∃ item relation events, item.kind = .note ∧
        item.sourceSemanticUnitIds = [event.eventId] ∧
        (events = loop.run.events ∨
          ∃ j ∈ loop.published, events = loop.run.events.modify j setSuperseded) ∧
        (loop.step host answers i).run.events =
          events.modify i (setPublishedNote event.disposition relation) ∧
        (loop.step host answers i).notes = loop.notes ++ [item] ∧
        (loop.step host answers i).published = loop.published ++ [i] := by
  unfold NoteLoop.step
  rw [hevent]
  dsimp only
  split
  case isTrue hnot =>
    exact .inl ⟨_, withholds_setNotPublishable hcandidate hnot, rfl, rfl, rfl⟩
  case isFalse =>
    split
    case isTrue => exact .inl ⟨_, withholds_setDuplicateIdentity, rfl, rfl, rfl⟩
    case isFalse =>
      split
      case h_1 => exact .inl ⟨_, withholds_setAbstained, rfl, rfl, rfl⟩
      case h_2 draft hdraft =>
        split
        case isTrue => exact .inl ⟨_, withholds_setDuplicateNote, rfl, rfl, rfl⟩
        case isFalse =>
          refine .inr ⟨_, _, _, rfl, rfl, ?_, rfl, rfl, rfl⟩
          split
          case h_1 j hrelated =>
            obtain ⟨other, hother⟩ := findMemoryRelation_mem hrelated
            obtain ⟨k, hk, hpair⟩ := List.mem_filterMap.mp hother
            obtain ⟨found, -, hfound⟩ := Option.map_eq_some_iff.mp hpair
            have hj : k = j := congrArg Prod.fst hfound
            exact .inr ⟨j, hj ▸ hk, rfl⟩
          case h_2 => exact .inl rfl

/-- The note of an event of `start`. -/
def NoteOf (start : List AtomicEvent) (item : Artifact) (i : Nat) : Prop :=
  item.kind = .note ∧ ∃ event, start[i]? = some event ∧ item.sourceSemanticUnitIds = [event.eventId]

theorem exists_note_of_published {relation : Artifact → Nat → Prop} {notes : List Artifact}
    {published : List Nat} (h : List.Forall₂ relation notes published) (hi : i ∈ published) :
    ∃ item ∈ notes, relation item i := by
  induction h with
  | nil => exact absurd hi List.not_mem_nil
  | @cons item j notes published hof _ ih =>
    rcases List.mem_cons.mp hi with rfl | hrest
    · exact ⟨item, List.mem_cons_self, hof⟩
    · obtain ⟨other, hmem, hother⟩ := ih hrest
      exact ⟨other, List.mem_cons_of_mem _ hmem, hother⟩

theorem exists_position_of_note {relation : Artifact → Nat → Prop} {notes : List Artifact}
    {published : List Nat} (h : List.Forall₂ relation notes published) {item : Artifact}
    (hitem : item ∈ notes) : ∃ i ∈ published, relation item i := by
  induction h with
  | nil => exact absurd hitem List.not_mem_nil
  | @cons first j notes published hof _ ih =>
    rcases List.mem_cons.mp hitem with rfl | hrest
    · exact ⟨j, List.mem_cons_self, hof⟩
    · obtain ⟨k, hk, hother⟩ := ih hrest
      exact ⟨k, List.mem_cons_of_mem _ hk, hother⟩

/-- The loop over the memory channel, when it has seen some positions of `start`. -/
structure NoteLoop.Sound (start : List AtomicEvent) (done : List Nat) (loop : NoteLoop) :
    Prop where
  follows : Follows NoteKept start loop.run.events
  untouched : ∀ i, i ∉ done → loop.run.events[i]? = start[i]?
  settled : ∀ i ∈ done, ∀ event, loop.run.events[i]? = some event →
    event.memoryDisposition ≠ none ∧ (event.memoryDisposition = some .publishedNote →
      ∃ item ∈ loop.notes, item.sourceSemanticUnitIds = [event.eventId])
  notes : List.Forall₂ (NoteOf start) loop.notes loop.published
  published : ∀ i ∈ loop.published, i ∈ done
  nodup : loop.published.Nodup

variable {loop : NoteLoop}

theorem NoteLoop.Sound.change (h : loop.Sound start done)
    (hevent : loop.run.events[i]? = some event) {change : AtomicEvent → AtomicEvent}
    (hkept : ∀ other, NoteKept other (change other)) {next : NoteLoop}
    (hevents : next.run.events = loop.run.events.modify i change)
    (hmore : ∀ item ∈ loop.notes, item ∈ next.notes)
    (hsome : (change event).memoryDisposition ≠ none)
    (hpublished : (change event).memoryDisposition = some .publishedNote →
      ∃ item ∈ next.notes, item.sourceSemanticUnitIds = [event.eventId])
    (hnotes : List.Forall₂ (NoteOf start) next.notes next.published)
    (hdone : ∀ j ∈ next.published, j ∈ i :: done) (hnodup : next.published.Nodup) :
    next.Sound start (i :: done) := by
  refine ⟨?_, ?_, ?_, hnotes, hdone, hnodup⟩
  · rw [hevents]
    exact h.follows.modify fun before after _ hbefore => hbefore.trans (hkept after)
  · intro j hj
    rw [hevents, getElem?_modify_of_ne (ne_of_mem_of_not_mem List.mem_cons_self hj)]
    exact h.untouched j fun hmem => hj (List.mem_cons_of_mem _ hmem)
  · intro j hj after hafter
    rw [hevents] at hafter
    by_cases hij : i = j
    · subst hij
      rw [getElem?_modify_self hevent] at hafter
      cases hafter
      refine ⟨hsome, fun heq => ?_⟩
      rw [(hkept event).facts.eventId]
      exact hpublished heq
    · rw [getElem?_modify_of_ne hij] at hafter
      have hold := (List.mem_cons.mp hj).resolve_left fun heq => hij heq.symm
      obtain ⟨hsome, hitem⟩ := h.settled j hold after hafter
      refine ⟨hsome, fun heq => ?_⟩
      obtain ⟨item, hmem, hsources⟩ := hitem heq
      exact ⟨item, hmore item hmem, hsources⟩

theorem NoteLoop.Sound.congr {done' : List Nat} (h : loop.Sound start done)
    (hsame : ∀ i, i ∈ done ↔ i ∈ done') : loop.Sound start done' :=
  ⟨h.follows, fun i hi => h.untouched i fun hmem => hi ((hsame i).mp hmem),
    fun i hi => h.settled i ((hsame i).mpr hi), h.notes,
    fun i hi => (hsame i).mp (h.published i hi), h.nodup⟩

theorem NoteLoop.Sound.withhold (h : loop.Sound start done)
    (hevent : loop.run.events[i]? = some event) {change : AtomicEvent → AtomicEvent}
    (hchange : Withholds event change) {next : NoteLoop}
    (hevents : next.run.events = loop.run.events.modify i change)
    (hnotes : next.notes = loop.notes) (hpublished : next.published = loop.published) :
    next.Sound start (i :: done) := by
  obtain ⟨disposition, hne, hdisposition⟩ := hchange.disposition
  refine h.change hevent hchange.kept hevents ?_ ?_ ?_ ?_ ?_ ?_
  · rw [hnotes]
    exact fun _ hitem => hitem
  · rw [hdisposition]
    exact Option.some_ne_none _
  · rw [hdisposition]
    exact fun heq => absurd (Option.some.inj heq) hne
  · rw [hnotes, hpublished]
    exact h.notes
  · rw [hpublished]
    exact fun j hj => List.mem_cons_of_mem _ (h.published j hj)
  · rw [hpublished]
    exact h.nodup

theorem NoteLoop.Sound.step (h : loop.Sound start done) (hfresh : i ∉ done)
    (hstart : start[i]? = some event) (hcandidate : eventIsMemoryCandidate event = true) :
    (loop.step host answers i).Sound start (i :: done) := by
  have hevent : loop.run.events[i]? = some event := (h.untouched i hfresh).trans hstart
  rcases NoteLoop.step_cases loop i hevent hcandidate with
    ⟨change, hchange, hevents, hnotes, hpublished⟩ |
    ⟨item, relation, events, hkind, hsources, hsuperseded, hevents, hnotes, hpublished⟩
  · exact h.withhold hevent hchange hevents hnotes hpublished
  · have hmid : NoteLoop.Sound start done { loop with run := { loop.run with events } } := by
      rcases hsuperseded with rfl | ⟨j, hj, rfl⟩
      · exact h
      · have hdone := h.published j hj
        obtain ⟨noted, -, -, before, hbefore, -⟩ := exists_note_of_published h.notes hj
        obtain ⟨after, hafter, -⟩ := h.follows.after hbefore
        have hmarked : NoteLoop.Sound start (j :: done) { loop with
            run := { loop.run with events := loop.run.events.modify j setSuperseded } } :=
          h.withhold hafter withholds_setSuperseded rfl rfl rfl
        refine hmarked.congr fun k => ?_
        rw [List.mem_cons, or_iff_right_iff_imp]
        rintro rfl
        exact hdone
    have hmidEvent : events[i]? = some event := (hmid.untouched i hfresh).trans hstart
    refine hmid.change hmidEvent (noteKept_setPublishedNote event.disposition relation) hevents
      ?_ ?_ ?_ ?_ ?_ ?_
    · rw [hnotes]
      exact fun _ hitem => List.mem_append_left _ hitem
    · exact Option.some_ne_none _
    · exact fun _ => ⟨item, hnotes ▸ List.mem_append_right _ List.mem_cons_self, hsources⟩
    · rw [hnotes, hpublished]
      exact List.rel_append h.notes (.cons ⟨hkind, event, hstart, hsources⟩ .nil)
    · rw [hpublished]
      intro j hj
      rcases List.mem_append.mp hj with hold | hnew
      · exact List.mem_cons_of_mem _ (h.published j hold)
      · rw [List.mem_singleton.mp hnew]
        exact List.mem_cons_self
    · rw [hpublished]
      refine List.nodup_append.mpr ⟨h.nodup, List.nodup_singleton _, ?_⟩
      intro j hj k hk heq
      rw [List.mem_singleton.mp hk] at heq
      exact hfresh (heq ▸ h.published j hj)

variable (host answers) in
theorem NoteLoop.Sound.foldl (positions : List Nat) (hnodup : positions.Nodup)
    (hcandidates : ∀ i ∈ positions, ∃ event, start[i]? = some event ∧ eventIsMemoryCandidate event =
      true)
    (hfresh : ∀ i ∈ positions, i ∉ done) (h : loop.Sound start done) :
    (positions.foldl (NoteLoop.step host answers) loop).Sound start
      (positions.reverse ++ done) := by
  induction positions generalizing done loop with
  | nil => exact h
  | cons i rest ih =>
    rw [List.foldl_cons, List.reverse_cons, List.append_assoc]
    obtain ⟨event, hstart, hcandidate⟩ := hcandidates i List.mem_cons_self
    refine ih (List.nodup_cons.mp hnodup).2 (fun j hj => hcandidates j (List.mem_cons_of_mem _ hj))
      ?_ (h.step (hfresh i List.mem_cons_self) hstart hcandidate)
    intro j hj hmem
    rcases List.mem_cons.mp hmem with heq | hold
    · exact (List.nodup_cons.mp hnodup).1 (heq ▸ hj)
    · exact hfresh j (List.mem_cons_of_mem _ hj) hold

theorem synthesizeNotes_sound (run : Run) {memory : List Nat} (hnodup : memory.Nodup)
    (hcandidates : ∀ i ∈ memory, ∃ event, run.events[i]? = some event ∧
      eventIsMemoryCandidate event = true) :
    (synthesizeNotes host answers run memory).Sound run.events memory.reverse := by
  have hstart : NoteLoop.Sound run.events [] { run } :=
    ⟨Follows.refl NoteKept.refl _, fun _ _ => rfl, fun i hi => absurd hi List.not_mem_nil, .nil,
      fun i hi => absurd hi List.not_mem_nil, List.nodup_nil⟩
  have hrun := NoteLoop.Sound.foldl host answers memory hnodup hcandidates
    (fun i _ => List.not_mem_nil) hstart
  rwa [List.append_nil] at hrun

end AiBuddy.EventPipeline
