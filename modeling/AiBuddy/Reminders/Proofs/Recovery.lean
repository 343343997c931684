import AiBuddy.Reminders.Proofs.SentOnce

/-!
# What a restarted worker finds again

After `recover`, an occurrence waits if it waited before, if its reminder was listed as upcoming, or
if its claim had expired. An occurrence whose claim has not expired when the worker is back, and
whose reminder is TRIGGERING, is none of these.
-/

namespace AiBuddy.Reminders

open Program Redis

/-- A worker starts and its call of `recover` comes to its end. -/
def recovered (config : Config) (outcome : TriggerEvent → DispatchOutcome) (s : State) : State :=
  ((recover config).eval (answer outcome) s).2

/-- What `upcoming` looks ahead to. -/
def horizon (config : Config) (s : State) : Instant := s.clock + config.lookaheadSeconds * second

def DueBy (untilAt : Instant) (reminder : Reminder) (member : String) : Prop :=
  ∃ next, reminder.nextTriggerAtUtc = some next ∧ next ≤ untilAt ∧ member = reminder.occurrence next

def Waits (s : State) (member : String) : Prop := member ∈ s.schedule ∨ member ∈ s.retry

def NoneStranded (untilAt : Instant) (s : State) : Prop :=
  ∀ reminder ∈ s.reminders, reminder.deliveryStatus.claimable = true →
    ∀ member, DueBy untilAt reminder member → Waits s member

def Expired (s : State) (member : String) : Prop :=
  member ∈ s.processing.rangeByScore 0 (timestamp s.clock)

def listed (config : Config) (s : State) : List Reminder :=
  (s.reminders.filter (Reminder.upcoming (horizon config s))).take 5000

/-- Before `recover`: the claim of the occurrence has run out and its id can be read, or there is
no such claim and the occurrence waits or belongs to a listed reminder. -/
def Recoverable (config : Config) (s : State) (member : String) : Prop :=
  (Expired s member → (parseOccurrenceId member).isSome = true) ∧
    (Expired s member ∨ Waits s member ∨
      ∃ reminder ∈ listed config s, DueBy (horizon config s) reminder member)

section Recovery

variable {config : Config} {outcome : TriggerEvent → DispatchOutcome} {s s' s'' : State}
  {member other : String} {now untilAt : Instant}

theorem listed_due {reminder : Reminder} (h : reminder ∈ listed config s) {next : Instant}
    (hnext : reminder.nextTriggerAtUtc = some next) : next ≤ horizon config s := by
  obtain ⟨-, hupcoming⟩ := List.mem_filter.mp (List.mem_of_mem_take h)
  obtain ⟨-, hany⟩ := Bool.and_eq_true_iff.mp hupcoming
  rw [hnext, Option.any_some] at hany
  exact of_decide_eq_true hany

structure Unchanged (s s' : State) : Prop where
  clock : s'.clock = s.clock
  retry : s'.retry = s.retry
  processing : s'.processing = s.processing
  reminders : s'.reminders = s.reminders

theorem Unchanged.refl : Unchanged s s := ⟨rfl, rfl, rfl, rfl⟩

theorem Unchanged.trans (h : Unchanged s s') (h' : Unchanged s' s'') : Unchanged s s'' :=
  ⟨h'.clock.trans h.clock, h'.retry.trans h.retry, h'.processing.trans h.processing,
    h'.reminders.trans h.reminders⟩

def HasOccurrence (reminder : Reminder) (member : String) : Prop :=
  ∃ next, reminder.nextTriggerAtUtc = some next ∧ member = reminder.occurrence next

theorem recoverReminder_eval (outcome : TriggerEvent → DispatchOutcome) (reminder : Reminder)
    (s : State) :
    Unchanged s ((recoverReminder reminder).eval (answer outcome) s).2 ∧
      ∀ member, member ∈ ((recoverReminder reminder).eval (answer outcome) s).2.schedule ↔
        member ∈ s.schedule ∨ HasOccurrence reminder member := by
  unfold recoverReminder
  split
  · next hnext =>
    refine ⟨.refl, fun member => ⟨.inl, ?_⟩⟩
    rintro (hin | ⟨next, hsome, -⟩)
    · exact hin
    · rw [hnext] at hsome
      cases hsome
  · next next hnext =>
    have hmember : ∀ member, HasOccurrence reminder member ↔ member = reminder.occurrence next := by
      intro member
      constructor
      · rintro ⟨next', hnext', rfl⟩
        rw [hnext] at hnext'
        rw [Option.some.inj hnext']
      · exact fun hsame => ⟨next, hnext, hsame⟩
    simp only [hmember, eval_issue_bind, answer, decide_eq_true_eq]
    split
    · next hin =>
      refine ⟨.refl, fun member => ⟨.inl, ?_⟩⟩
      rintro (hwas | rfl)
      · exact hwas
      · exact hin
    · refine ⟨⟨rfl, rfl, rfl, rfl⟩, fun member => ?_⟩
      rw [or_comm]
      exact SortedSet.mem_add

theorem recoverReminders_eval (outcome : TriggerEvent → DispatchOutcome)
    (reminders : List Reminder) (s : State) :
    Unchanged s ((forEach recoverReminder reminders).eval (answer outcome) s).2 ∧
      ∀ member, member ∈ ((forEach recoverReminder reminders).eval (answer outcome) s).2.schedule ↔
        member ∈ s.schedule ∨ ∃ reminder ∈ reminders, HasOccurrence reminder member := by
  induction reminders generalizing s with
  | nil => exact ⟨.refl, fun member => by simp [forEach]⟩
  | cons reminder reminders ih =>
    rw [eval_forEach_cons]
    obtain ⟨hfirst, hschedule⟩ := recoverReminder_eval outcome reminder s
    obtain ⟨hrest, hschedule'⟩ := ih ((recoverReminder reminder).eval (answer outcome) s).2
    refine ⟨hfirst.trans hrest, fun member => ?_⟩
    rw [hschedule', hschedule, List.exists_mem_cons_iff, or_assoc]

theorem waits_requeueExpired (outcome : TriggerEvent → DispatchOutcome) (s : State) :
    ((requeueExpired now member).eval (answer outcome) s).2.reminders = s.reminders ∧
      ∀ other, Waits ((requeueExpired now member).eval (answer outcome) s).2 other ↔
        if other = member then (parseOccurrenceId other).isSome = true else Waits s other := by
  unfold requeueExpired
  split
  · next hparse =>
    refine ⟨rfl, fun other => ?_⟩
    have hcomplete : Waits (s.complete member) other ↔ other ≠ member ∧ Waits s other := by
      rw [Waits, State.complete, SortedSet.mem_remove, SortedSet.mem_remove, ← and_or_left]
      exact Iff.rfl
    refine hcomplete.trans ?_
    split
    · next hsame =>
      rw [hsame, hparse]
      simp
    · next hne => exact ⟨And.right, fun hwaits => ⟨hne, hwaits⟩⟩
  · next id stamp hparse =>
    refine ⟨rfl, fun other => ?_⟩
    refine (or_congr SortedSet.mem_add Iff.rfl).trans ?_
    split
    · next hsame =>
      rw [hsame, hparse]
      simp
    · next hne =>
      rw [or_iff_right hne]
      exact Iff.rfl

theorem waits_requeueAll (members : List String) (s : State) :
    ((forEach (requeueExpired now) members).eval (answer outcome) s).2.reminders = s.reminders ∧
      ∀ other, Waits ((forEach (requeueExpired now) members).eval (answer outcome) s).2 other ↔
        (other ∈ members → (parseOccurrenceId other).isSome = true) ∧
          (other ∈ members ∨ Waits s other) := by
  induction members generalizing s with
  | nil => exact ⟨rfl, fun other => by simp [forEach]⟩
  | cons member members ih =>
    rw [eval_forEach_cons]
    obtain ⟨hreminders, hwaits⟩ := waits_requeueExpired outcome s
    obtain ⟨hreminders', hwaits'⟩ := ih ((requeueExpired now member).eval (answer outcome) s).2
    refine ⟨hreminders'.trans hreminders, fun other => ?_⟩
    rw [hwaits', hwaits, List.mem_cons]
    by_cases hsame : other = member
    · rw [if_pos hsame]
      simp only [hsame, true_or, forall_const]
      tauto
    · rw [if_neg hsame]
      simp only [hsame, false_or]

def rescheduled (config : Config) (outcome : TriggerEvent → DispatchOutcome) (s : State) : State :=
  ((forEach recoverReminder (listed config s)).eval (answer outcome) s).2

theorem recovered_eq : recovered config outcome s =
    ((forEach (requeueExpired s.clock)
      ((rescheduled config outcome s).processing.rangeByScore 0 (timestamp s.clock))).eval
        (answer outcome) (rescheduled config outcome s)).2 := by
  rw [recovered, recover, eval_issue_bind, eval_issue_bind, eval_bind, eval_issue_bind]
  rfl

theorem recovered_reminders : (recovered config outcome s).reminders = s.reminders := by
  obtain ⟨hfirst, -⟩ := recoverReminders_eval outcome (listed config s) s
  rw [recovered_eq]
  exact (waits_requeueAll _ _).1.trans hfirst.reminders

theorem waits_recovered : Waits (recovered config outcome s) member ↔
    Recoverable config s member := by
  obtain ⟨hfirst, hschedule⟩ := recoverReminders_eval outcome (listed config s) s
  have hwaits : Waits (rescheduled config outcome s) member ↔
      Waits s member ∨ ∃ reminder ∈ listed config s, HasOccurrence reminder member := by
    rw [Waits, rescheduled, hschedule, hfirst.retry, or_right_comm]
    exact Iff.rfl
  have hlisted : (∃ reminder ∈ listed config s, HasOccurrence reminder member) ↔
      ∃ reminder ∈ listed config s, DueBy (horizon config s) reminder member := by
    refine exists_congr fun reminder => and_congr_right fun hmem => ?_
    refine exists_congr fun next => and_congr_right fun hnext => ?_
    exact (and_iff_right (listed_due hmem hnext)).symm
  rw [recovered_eq]
  refine ((waits_requeueAll _ _).2 member).trans ?_
  rw [hwaits, hlisted, rescheduled, hfirst.processing]
  exact Iff.rfl

end Recovery

/-- After `recover` every occurrence due within the lookahead waits, exactly when each of them was
recoverable before. -/
theorem recover_strands_none_iff (config : Config) (outcome : TriggerEvent → DispatchOutcome)
    (s : State) :
    NoneStranded (horizon config s) (recovered config outcome s) ↔
      ∀ reminder ∈ s.reminders, reminder.deliveryStatus.claimable = true →
        ∀ member, DueBy (horizon config s) reminder member → Recoverable config s member := by
  rw [NoneStranded, recovered_reminders]
  simp only [waits_recovered]

def sampleCrashed : State :=
  (advance (answer fun _ => .sent) 6 (tick sampleConfig) sampleState).2

/-- The worker is back within the time to live of the claim. The reminder is TRIGGERING and not
listed, the claim has not expired, and the occurrence stays in the processing set alone. -/
theorem crash_strands_occurrence :
    Planned sampleState ∧
    (recovered sampleConfig (fun _ => .sent) sampleCrashed).reminders =
      [sampleReminder.triggering sampleState.clock] ∧
    DueBy (horizon sampleConfig sampleCrashed) (sampleReminder.triggering sampleState.clock)
      sampleMember ∧
    sampleMember ∈ (recovered sampleConfig (fun _ => .sent) sampleCrashed).processing ∧
    ¬ Waits (recovered sampleConfig (fun _ => .sent) sampleCrashed) sampleMember ∧
    ¬ NoneStranded (horizon sampleConfig sampleCrashed)
      (recovered sampleConfig (fun _ => .sent) sampleCrashed) := by
  have hreminders : (recovered sampleConfig (fun _ => .sent) sampleCrashed).reminders =
      [sampleReminder.triggering sampleState.clock] := by decide +kernel
  have hdue : DueBy (horizon sampleConfig sampleCrashed)
      (sampleReminder.triggering sampleState.clock) sampleMember :=
    ⟨20000 * day, rfl, by decide +kernel, rfl⟩
  have hout : ¬ Waits (recovered sampleConfig (fun _ => .sent) sampleCrashed) sampleMember := by
    unfold Waits
    decide +kernel
  refine ⟨sampleState_planned, hreminders, hdue, by decide +kernel, hout, fun h => hout ?_⟩
  refine h _ ?_ rfl sampleMember hdue
  rw [hreminders]
  exact List.mem_singleton_self _

end AiBuddy.Reminders
