import AiBuddy.Chat.Actions
import Mathlib.Data.List.ReduceOption

/-!
# What a follow-up answer keeps

The fields that a reply fills are known before the merge. A field at its default is kept unless it
is one of them, or its default is itself taken for something given.
-/

namespace AiBuddy.Chat

variable {host : Host} {action : WriteAction} {reply : String} {spec kept merged : ChatWriteSpec}
  {field : TextField}

def FilledBy (host : Host) (reply : String) (field : TextField) (value : Option String) : Prop :=
  (field ∈ [.title, .newTitle, .description] ∧ value = some reply) ∨
    (field ∈ [.timeLabel, .startTimeLabel] ∧ value = host.extractTime reply)

structure Merged (host : Host) (reply : String) (spec kept result : ChatWriteSpec) : Prop where
  action : spec.action = ({} : ChatWriteSpec).action → result.action = kept.action
  «repeat» : spec.repeat = ({} : ChatWriteSpec).repeat → result.repeat = kept.repeat
  text : ∃ filled, ∀ field, spec.text field = ({} : ChatWriteSpec).text field →
    result.text field = kept.text field ∨
      field = filled ∧ FilledBy host reply field (result.text field)
  missing : result.missingFields = requiredMissing host result
  ready : result.ready = true ↔ result.missingFields = []

def replyFills (host : Host) (action : WriteAction) (reply : String) (merged : ChatWriteSpec) :
    List (TextField × String) :=
  let title := titleFill host action reply merged
  let merged := merged.fill title
  let update := updateFill host action reply merged
  let merged := merged.fill update
  let time := timeFill host action reply .createReminder .timeLabel merged
  let merged := merged.fill time
  let start := timeFill host action reply .createEvent .startTimeLabel merged
  [title, update, time, start].reduceOption

def Overwritten (host : Host) (action : WriteAction) (reply : String) (spec kept : ChatWriteSpec)
    (field : TextField) : Prop :=
  spec.text field = field.default ∧
    ∃ value, (field, value) ∈ replyFills host action (host.strip reply)
      (beforeReply spec kept action) ∧ some value ≠ kept.text field

theorem not_filledBy_priority {value : Option String} :
    ¬ FilledBy host reply .priority value := by
  rintro (⟨h, -⟩ | ⟨h, -⟩)
  · simp at h
  · simp at h

theorem titleFill_eq {filled : TextField × String}
    (h : titleFill host action reply merged = some filled) :
    filled = (.title, reply) := by
  unfold titleFill at h
  split at h
  · exact (Option.some.inj h).symm
  · cases h

theorem updateFill_eq {filled : TextField × String}
    (h : updateFill host action reply merged = some filled) :
    filled = (.newTitle, reply) ∨ filled = (.description, reply) := by
  unfold updateFill at h
  grind

theorem timeFill_eq {timed : WriteAction} {filled : TextField × String}
    (h : timeFill host action reply timed field merged = some filled) :
    filled.1 = field ∧ host.extractTime reply = some filled.2 := by
  unfold timeFill at h
  grind

theorem replyFills_spec (host : Host) (action : WriteAction) (reply : String)
    (merged : ChatWriteSpec) :
    ((replyFills host action reply merged).map
      Prod.fst).Nodup ∧
    ∀ filled ∈ replyFills host action reply merged,
      FilledBy host reply filled.1 (some filled.2) := by
  unfold replyFills
  extract_lets title merged₁ update merged₂ time merged₃ start
  have htitle : ∀ filled, title = some filled → _ := fun _ => titleFill_eq
  have hupdate : ∀ filled, update = some filled → _ := fun _ => updateFill_eq
  have htime : ∀ filled, time = some filled → _ := fun _ => timeFill_eq
  have hstart : ∀ filled, start = some filled → _ := fun _ => timeFill_eq
  clear_value title update time start
  constructor
  · cases title <;> cases update <;> cases time <;> cases start <;>
      simp [List.reduceOption] <;> grind
  · intro filled hfilled
    rw [List.reduceOption_mem_iff] at hfilled
    simp only [List.mem_cons, List.not_mem_nil, or_false] at hfilled
    rcases hfilled with h | h | h | h
    · obtain rfl := htitle _ h.symm
      exact .inl ⟨List.mem_cons_self, rfl⟩
    · obtain rfl | rfl := hupdate _ h.symm
      · exact .inl ⟨by simp, rfl⟩
      · exact .inl ⟨by simp, rfl⟩
    · obtain ⟨hfield, hvalue⟩ := htime _ h.symm
      exact .inr ⟨by simp [hfield], hvalue.symm⟩
    · obtain ⟨hfield, hvalue⟩ := hstart _ h.symm
      exact .inr ⟨by simp [hfield], hvalue.symm⟩

def ChatWriteSpec.fillAll (spec : ChatWriteSpec) (fills : List (TextField × String)) :
    ChatWriteSpec :=
  fills.foldl (fun spec filled => spec.fill (some filled)) spec

theorem fillAll_text_of_notMem {fills : List (TextField × String)}
    (h : field ∉ fills.map Prod.fst) : (merged.fillAll fills).text field = merged.text field := by
  induction fills generalizing merged with
  | nil => rfl
  | cons first rest ih =>
    obtain ⟨hfirst, hrest⟩ := not_or.mp (mt List.mem_cons.mpr h)
    exact (ih hrest).trans (Function.update_of_ne hfirst _ _)

theorem fillAll_text_of_mem {fills : List (TextField × String)} {value : String}
    (hnodup : (fills.map Prod.fst).Nodup) (h : (field, value) ∈ fills) :
    (merged.fillAll fills).text field = some value := by
  induction fills generalizing merged with
  | nil => cases h
  | cons first rest ih =>
    obtain ⟨hfirst, hrest⟩ := List.nodup_cons.mp hnodup
    rcases List.mem_cons.mp h with rfl | h
    · exact (fillAll_text_of_notMem hfirst).trans (Function.update_self _ _ _)
    · exact ih hrest h

theorem fillAll_frame (merged : ChatWriteSpec) (fills : List (TextField × String)) :
    (merged.fillAll fills).action = merged.action ∧
      (merged.fillAll fills).repeat = merged.repeat := by
  induction fills generalizing merged with
  | nil => exact ⟨rfl, rfl⟩
  | cons first rest ih => exact ih _

theorem mergePartialSpec_eq :
    mergePartialSpec host spec kept reply action =
      let merged := (beforeReply spec kept action).fillAll
        (replyFills host action (host.strip reply) (beforeReply spec kept action))
      { merged with
        missingFields := requiredMissing host merged
        ready := requiredMissing host merged = [] } := by
  have hfills : ∀ (merged : ChatWriteSpec) (title update time start : Fill),
      (((merged.fill title).fill update).fill time).fill start =
        merged.fillAll [title, update, time, start].reduceOption := by
    rintro merged (_ | _) (_ | _) (_ | _) (_ | _) <;> rfl
  unfold mergePartialSpec replyFills
  dsimp only
  rw [← hfills]

theorem beforeReply_text (hdefault : spec.text field = field.default) (h : field ≠ .priority) :
    (beforeReply spec kept action).text field = kept.text field := by
  have hgiven : isGiven (spec.text field) = false := by
    rw [hdefault]
    cases field <;> first | rfl | exact absurd rfl h
  exact if_neg (by simp [hgiven])

theorem beforeReply_priority (hdefault : spec.text .priority = some "Medium") :
    (beforeReply spec kept action).text .priority = some "Medium" := by
  show (if isGiven (spec.text .priority) then spec.text .priority else kept.text .priority) = _
  rw [hdefault]
  rfl

theorem beforeReply_repeat (hdefault : spec.repeat = "once") :
    (beforeReply spec kept action).repeat = "once" := by
  show (if isGiven (some spec.repeat) then spec.repeat else kept.repeat) = _
  rw [hdefault]
  rfl

theorem beforeReply_action (hdefault : spec.action = .none) :
    (beforeReply spec kept action).action =
      if kept.action = .none then action else kept.action := by
  have haction : (kept.overlay spec).action = kept.action := if_pos hdefault
  unfold beforeReply
  dsimp only
  rw [haction]

/-- The collected values are kept, exactly where the collected priority and repetition are the
defaults that the reply has too, an action has been collected or is not needed, and the reply
overwrites one field at most. -/
theorem mergePartialSpec_keeps_iff (host : Host) (spec kept : ChatWriteSpec) (reply : String)
    (action : WriteAction) :
    Merged host (host.strip reply) spec kept (mergePartialSpec host spec kept reply action) ↔
      (spec.text .priority = some "Medium" → kept.text .priority = some "Medium") ∧
        (spec.repeat = "once" → kept.repeat = "once") ∧
        (spec.action = .none → kept.action = .none → action = .none) ∧
        ∀ field other, Overwritten host action reply spec kept field →
          Overwritten host action reply spec kept other → field = other := by
  obtain ⟨hnodup, hfilled⟩ :=
    replyFills_spec host action (host.strip reply) (beforeReply spec kept action)
  unfold Overwritten
  rw [mergePartialSpec_eq]
  generalize replyFills host action (host.strip reply) (beforeReply spec kept action) = fills
    at hnodup hfilled ⊢
  obtain ⟨haction, hrepeat⟩ := fillAll_frame (beforeReply spec kept action) fills
  have hpriority : .priority ∉ fills.map Prod.fst := by
    intro hmem
    obtain ⟨⟨field, value⟩, hfill, rfl⟩ := List.mem_map.mp hmem
    exact not_filledBy_priority (hfilled _ hfill)
  constructor
  · intro h
    obtain ⟨filled, hkeep⟩ := h.text
    refine ⟨fun hdefault => ?_, fun hdefault => ?_, fun hdefault hnone => ?_, ?_⟩
    · rcases hkeep .priority hdefault with hkept | ⟨-, hby⟩
      · exact hkept.symm.trans
          ((fillAll_text_of_notMem hpriority).trans (beforeReply_priority hdefault))
      · exact absurd hby not_filledBy_priority
    · exact (h.repeat hdefault).symm.trans (hrepeat.trans (beforeReply_repeat hdefault))
    · have hresult := haction.symm.trans ((h.action hdefault).trans hnone)
      rwa [beforeReply_action hdefault, if_pos hnone] at hresult
    · have honly : ∀ field, spec.text field = field.default →
          ∀ value, (field, value) ∈ fills → some value ≠ kept.text field → field = filled := by
        intro field hdefault value hfill hother
        rcases hkeep field hdefault with hkept | ⟨hfield, -⟩
        · exact absurd ((fillAll_text_of_mem hnodup hfill).symm.trans hkept) hother
        · exact hfield
      rintro field other ⟨hdefault, value, hfill, hother⟩ ⟨hdefault', value', hfill', hother'⟩
      exact (honly field hdefault value hfill hother).trans
        (honly other hdefault' value' hfill' hother').symm
  · rintro ⟨hprio, hrep, hact, honce⟩
    refine ⟨fun hdefault => ?_, fun hdefault => ?_, ?_, rfl, decide_eq_true_iff⟩
    · refine haction.trans ?_
      rw [beforeReply_action hdefault]
      split
      · next hnone => exact (hact hdefault hnone).trans hnone.symm
      · rfl
    · exact hrepeat.trans ((beforeReply_repeat hdefault).trans (hrep hdefault).symm)
    · obtain ⟨filled, honly⟩ : ∃ filled, ∀ field, (spec.text field = field.default ∧
          ∃ value, (field, value) ∈ fills ∧ some value ≠ kept.text field) → field = filled := by
        by_cases hsome : ∃ field, spec.text field = field.default ∧
            ∃ value, (field, value) ∈ fills ∧ some value ≠ kept.text field
        · obtain ⟨filled, hover⟩ := hsome
          exact ⟨filled, fun field h => honce field filled h hover⟩
        · exact ⟨.title, fun field h => absurd ⟨field, h⟩ hsome⟩
      refine ⟨filled, fun field hdefault => ?_⟩
      by_cases hmem : field ∈ fills.map Prod.fst
      · obtain ⟨⟨field, value⟩, hfill, rfl⟩ := List.mem_map.mp hmem
        have htext : ((beforeReply spec kept action).fillAll fills).text field = some value :=
          fillAll_text_of_mem hnodup hfill
        by_cases hsame : some value = kept.text field
        · exact .inl (htext.trans hsame)
        · refine .inr ⟨honly field ⟨hdefault, value, hfill, hsame⟩, ?_⟩
          exact htext.symm ▸ hfilled _ hfill
      · refine .inl ((fillAll_text_of_notMem hmem).trans ?_)
        by_cases hfield : field = .priority
        · subst hfield
          exact (beforeReply_priority hdefault).trans (hprio hdefault).symm
        · exact beforeReply_text hdefault hfield

def plainHost : Host := ⟨Text.strip, Text.lower, fun _ => false, fun _ => none⟩

def urgentTask : ChatWriteSpec where
  action := .createTask
  text
    | .priority => some "High"
    | field => field.default
  missingFields := ["title"]

def milkTask : ChatWriteSpec where
  action := .createTask
  text
    | .title => some "Buy milk"
    | field => field.default
  ready := true

theorem collected_priority_lost :
    ¬ Merged plainHost "Buy milk" milkTask urgentTask
      (mergePartialSpec plainHost milkTask urgentTask "Buy milk" .createTask) := by
  intro h
  obtain ⟨filled, hkeep⟩ := h.text
  rcases hkeep .priority rfl with hkept | ⟨-, hby⟩
  · revert hkept
    decide
  · exact not_filledBy_priority hby

end AiBuddy.Chat
