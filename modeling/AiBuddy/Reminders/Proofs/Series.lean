import AiBuddy.Reminders.Proofs.Recovery

/-!
# How long a repeating reminder stays alive

A round executes the occurrences that it claims one after another. An execution that is not late,
and whose dispatch either succeeds while there is a next trigger or is tried again, leaves the
reminder scheduled for an occurrence that waits. Every other one ends the series.
-/

namespace AiBuddy.Reminders

open Program Redis

def ticked (config : Config) (outcome : TriggerEvent → DispatchOutcome) (s : State) : State :=
  ((tick config).eval (answer outcome) s).2

def executed (config : Config) (outcome : TriggerEvent → DispatchOutcome) (retryDue : List String)
    (now : Instant) (member : String) (s : State) : State :=
  ((claimAndExecute config retryDue now member).eval (answer outcome) s).2

def executions (config : Config) (outcome : TriggerEvent → DispatchOutcome)
    (retryDue : List String) (now : Instant) : List String → State → List (String × State)
  | [], _ => []
  | member :: members, s =>
    let key := if member ∈ retryDue then ZSetKey.retry else .schedule
    let rest := executions config outcome retryDue now members
      (executed config outcome retryDue now member s)
    if s.claims key member (timestamp now) then (member, s) :: rest else rest

def roundExecutions (config : Config) (outcome : TriggerEvent → DispatchOutcome) (s : State) :
    List (String × State) :=
  let due := s.dueMembers .schedule (timestamp s.clock) config.batchSize
  let retryDue := s.dueMembers .retry (timestamp s.clock) config.batchSize
  executions config outcome retryDue s.clock (due ++ retryDue) s

def Alive (s : State) (id : ReminderId) : Prop :=
  ∃ reminder ∈ s.reminders, reminder.id = id ∧
    (reminder.deliveryStatus = .scheduled ∨ reminder.deliveryStatus = .retryPending) ∧
    ∃ member, reminder.scheduledOccurrenceId = some member ∧ Waits s member

structure Current (s : State) (id : ReminderId) (reminder : Reminder) (member : String)
    (occurrenceAt : Instant) : Prop where
  mem : reminder ∈ s.reminders
  id_eq : reminder.id = id
  status : reminder.deliveryStatus = .scheduled ∨ reminder.deliveryStatus = .retryPending
  scheduled : reminder.scheduledOccurrenceId = some member
  parsed : parseMember member = some (id.str, occurrenceAt)
  undelivered : reminder.lastDeliveredOccurrenceKey ≠ some member

structure InSeries (s : State) (id : ReminderId) (reminder : Reminder) (member : String)
    (occurrenceAt : Instant) : Prop extends Current s id reminder member occurrenceAt where
  waits : Waits s member

/-- The occurrence is not late and can be delivered. It is sent and there is a next trigger, which
can be read back, or it is tried again. -/
def GoesOn (config : Config) (outcome : TriggerEvent → DispatchOutcome) (now : Instant)
    (reminder : Reminder) (member : String) (occurrenceAt : Instant) : Prop :=
  isLate config now occurrenceAt = false ∧
    ∃ type, reminder.deliveryType = some type ∧
      match outcome (reminder.event type reminder.id.str member occurrenceAt now) with
      | .sent => ∃ next, reminder.nextTrigger config occurrenceAt = some next ∧
          (parseMember (occurrenceId reminder.id.str next)).isSome = true
      | .deliveryError retryable => reminder.retries config retryable = true
      | .exception => reminder.retries config true = true

/-- A worker recovers, time passes, or the worker makes a round in which the reminder goes on after
each of its occurrences that the round executes. -/
inductive SeriesStep (config : Config) (id : ReminderId) (s : State) : State → Prop where
  | recover (outcome : TriggerEvent → DispatchOutcome) :
    SeriesStep config id s (recovered config outcome s)
  | elapse (clock : Instant) (hclock : s.clock ≤ clock) : SeriesStep config id s { s with clock }
  | tick (outcome : TriggerEvent → DispatchOutcome)
    (hgoes : ∀ execution ∈ roundExecutions config outcome s, ∀ reminder occurrenceAt,
      InSeries execution.2 id reminder execution.1 occurrenceAt →
      GoesOn config outcome s.clock reminder execution.1 occurrenceAt) :
    SeriesStep config id s (ticked config outcome s)

variable {event : TriggerEvent}

section Series

variable {config : Config} {outcome : TriggerEvent → DispatchOutcome} {s s' s'' : State}
  {retryDue : List String} {member other current reminderId text : String} {at_ now : Instant}
  {reminder claimed : Reminder} {id : ReminderId} {key : ZSetKey} {claimUntil : Int}

structure Spares (reminder : Reminder) (member : String) (s s' : State) : Prop where
  mem : reminder ∈ s.reminders → reminder ∈ s'.reminders
  waits : ∀ other, other ≠ member → Waits s other → Waits s' other

theorem Spares.trans (h : Spares reminder member s s') (h' : Spares reminder member s' s'') :
    Spares reminder member s s'' :=
  ⟨h'.mem ∘ h.mem, fun other hne => h'.waits other hne ∘ h.waits other hne⟩

theorem spares_complete : Spares reminder member s (s.complete member) := by
  refine ⟨id, fun other hne hwaits => ?_⟩
  exact hwaits.imp (fun hin => SortedSet.mem_remove.mpr ⟨hne, hin⟩)
    fun hin => SortedSet.mem_remove.mpr ⟨hne, hin⟩

theorem spares_claimed : Spares reminder member s (s.claimed key member claimUntil) := by
  cases key with
  | schedule =>
    exact ⟨id, fun other hne => Or.imp_left fun hin => SortedSet.mem_remove.mpr ⟨hne, hin⟩⟩
  | retry =>
    exact ⟨id, fun other hne => Or.imp_right fun hin => SortedSet.mem_remove.mpr ⟨hne, hin⟩⟩

theorem spares_scheduled {score : Int} : Spares reminder member s (s.scheduled other score) :=
  ⟨id, fun _ _ => Or.imp_left fun hin => SortedSet.mem_add.mpr (.inr hin)⟩

theorem spares_retryAt {score : Int} : Spares reminder member s (s.retryAt other score) :=
  ⟨id, fun _ _ => Or.imp_right fun hin => SortedSet.mem_add.mpr (.inr hin)⟩

theorem spares_update (change : Reminder → Reminder)
    (hid : ∀ reminder, (change reminder).key = reminder.key) (hkey : reminder.key ≠ idFilter text) :
    Spares reminder member s (s.update text change hid) := by
  refine ⟨fun hmem => ?_, fun _ _ => id⟩
  exact List.mem_map.mpr ⟨reminder, hmem, if_neg fun hsame => hkey hsame.1⟩

theorem spares_deadLetterPush {payload : String} :
    Spares reminder member s { s with deadLetter := payload :: s.deadLetter } :=
  ⟨id, fun _ _ => id⟩

theorem spares_sent : Spares reminder member s { s with sent := event :: s.sent } :=
    ⟨id, fun _ _ => id⟩

section

variable (hkey : reminder.key ≠ claimed.key)

include hkey

theorem idFilter_ne : reminder.key ≠ idFilter claimed.id.str := by
  rw [claimed.id.canonical]
  exact hkey

theorem handleSuccess_spares :
    Spares reminder member s
      ((handleSuccess config claimed member at_ now).eval (answer outcome) s).2 := by
  unfold handleSuccess
  cases claimed.nextTrigger config at_ with
  | none =>
    exact (spares_update (Reminder.delivered _) (fun _ => rfl) (idFilter_ne hkey)).trans
      spares_complete
  | some next =>
    exact (spares_scheduled.trans
      (spares_update (Reminder.delivered _) (fun _ => rfl) (idFilter_ne hkey))).trans
        spares_complete

theorem handleFailure_spares {retryable : Bool} :
    Spares reminder member s
      ((handleFailure config claimed member now retryable).eval (answer outcome) s).2 := by
  unfold handleFailure
  dsimp only
  split
  · exact (spares_update (Reminder.retrying _ _ _) (fun _ => rfl) (idFilter_ne hkey)).trans
      spares_retryAt
  · simp only [eval_issue_bind, eval_issue, answer]
    exact ((spares_update (Reminder.failed _) (fun _ => rfl) (idFilter_ne hkey)).trans
      spares_deadLetterPush).trans spares_complete

theorem deliver_spares (htext : claimed.key = idFilter reminderId) :
    Spares reminder member s
      ((deliver config claimed reminderId member at_ now).eval (answer outcome) s).2 := by
  have hne : reminder.key ≠ idFilter reminderId := htext ▸ hkey
  unfold deliver
  split
  · simp only [eval_issue_bind, eval_issue, answer]
    exact ((spares_update (Reminder.failed _) (fun _ => rfl) hne).trans
      spares_deadLetterPush).trans spares_complete
  · next type _ =>
    simp only [eval_issue_bind, answer]
    cases houtcome : outcome (claimed.event type reminderId member at_ now) with
    | sent => exact spares_sent.trans (handleSuccess_spares hkey)
    | deliveryError retryable => exact handleFailure_spares hkey
    | exception => exact handleFailure_spares hkey

end

theorem claimAndDeliver_spares (hkey : reminder.key ≠ idFilter reminderId) :
    Spares reminder member s
      ((claimAndDeliver config reminderId member at_ now).eval (answer outcome) s).2 := by
  unfold claimAndDeliver
  split
  · exact (spares_update (Reminder.failed _) (fun _ => rfl) hkey).trans spares_complete
  · simp only [eval_issue_bind, answer]
    cases hfound : (s.find? reminderId).filter (Reminder.claimable member) with
    | none => exact spares_complete
    | some found =>
      have htext : found.key = idFilter reminderId :=
        (Keyed.find?_eq_some (Option.filter_eq_some_iff.mp hfound).1).2
      refine (spares_update (Reminder.triggering _) (fun _ => rfl) hkey).trans
        (deliver_spares ?_ htext)
      exact fun hsame => hkey (hsame.trans htext)

theorem execute_spares (hmem : reminder ∈ s.reminders)
    (hscheduled : reminder.scheduledOccurrenceId = some current) (hcurrent : current ≠ "")
    (hne : current ≠ member) :
    Spares reminder member s ((execute config member now).eval (answer outcome) s).2 := by
  unfold execute
  split
  · simp only [eval_issue_bind, eval_issue, answer]
    exact spares_deadLetterPush.trans spares_complete
  · next reminderId at_ hparse =>
    simp only [eval_issue_bind, answer]
    cases hfind : s.find? reminderId with
    | none => exact spares_complete
    | some found =>
      dsimp only
      split
      · exact spares_complete
      · next hskips =>
        obtain ⟨hfound, hfoundKey⟩ := Keyed.find?_eq_some hfind
        refine claimAndDeliver_spares fun hsame => hskips ?_
        obtain rfl : reminder = found :=
          Keyed.eq_of_key s.ids_nodup hmem hfound (hsame.trans hfoundKey.symm)
        simp [Reminder.skips, hscheduled, hcurrent, hne]

section

variable (h : Current s id reminder member at_)

include h

theorem Current.names : Names s member at_ reminder := by
  refine ⟨id.str, h.parsed, (Keyed.find?_eq_some_iff s.ids_nodup).mpr ⟨h.mem, ?_⟩⟩
  rw [id.canonical, Reminder.key, h.id_eq]

theorem Current.find : s.find? id.str = some reminder := by
  obtain ⟨text, hparse, hfind⟩ := h.names
  rw [h.parsed] at hparse
  obtain ⟨rfl, -⟩ := Prod.mk.inj (Option.some.inj hparse)
  exact hfind

theorem Current.ne_empty : member ≠ "" := by
  rintro rfl
  have hparse := h.parsed
  rw [parseMember_empty] at hparse
  cases hparse

theorem Current.skips : reminder.skips member = false := by
  have hundelivered := h.undelivered
  rcases h.status with hstatus | hstatus <;>
    simp [Reminder.skips, hstatus, h.scheduled, hundelivered]

theorem Current.claimable : reminder.claimable member = true := by
  have hundelivered := h.undelivered
  rcases h.status with hstatus | hstatus <;>
    simp [Reminder.claimable, hstatus, DeliveryStatus.claimable, hundelivered]

end

theorem Names.mem_update (change : Reminder → Reminder)
    (hid : ∀ reminder, (change reminder).key = reminder.key) (h : Names s member at_ reminder)
    (hkey : reminder.key = idFilter text) :
    Names (s.update text change hid) member at_ (change reminder) :=
  names_update.mpr ⟨reminder, h, (if_pos hkey).symm⟩

theorem Reminder.key_eq (reminder : Reminder) : reminder.key = idFilter reminder.id.str :=
  reminder.id.canonical.symm

theorem handleSuccess_goesOn {next : Instant} (h : Current s id reminder member at_)
    (hnames : Names s' member at_ (reminder.triggering now))
    (hnext : reminder.nextTrigger config at_ = some next)
    (hread : (parseMember (occurrenceId reminder.id.str next)).isSome = true) :
    ∃ reminder' member' at',
      InSeries ((handleSuccess config (reminder.triggering now) member at_ now).eval
        (answer outcome) s').2 id reminder' member' at' := by
  obtain ⟨hlt, hdvd⟩ := nextTrigger_eq_some hnext
  obtain ⟨⟨text, at'⟩, hparse⟩ := Option.isSome_iff_exists.mp hread
  obtain ⟨rfl, rfl⟩ := parseMember_occurrenceId hparse
  rw [Int.ediv_mul_cancel hdvd, h.id_eq] at hparse
  have hne : occurrenceId id.str next ≠ member := by
    rintro hsame
    rw [hsame, h.parsed] at hparse
    exact absurd (Prod.mk.inj (Option.some.inj hparse)).2 (Int.ne_of_lt hlt)
  have hdelivery : (reminder.triggering now).delivery config member at_ now =
      ⟨member, now, some next, some (occurrenceId id.str next), .scheduled⟩ := by
    have hsame : (reminder.triggering now).nextTrigger config at_ = some next := hnext
    rw [Reminder.delivery, hsame, ← h.id_eq]
    rfl
  refine ⟨(reminder.triggering now).delivered ((reminder.triggering now).delivery config member
    at_ now), occurrenceId id.str next, next, ?_⟩
  unfold handleSuccess
  have hsame : (reminder.triggering now).nextTrigger config at_ = some next := hnext
  simp only [hsame, eval_issue_bind, eval_issue, answer]
  have hscheduled : Names (s'.scheduled (occurrenceId reminder.id.str next) (timestamp next)) member
      at_ (reminder.triggering now) := hnames
  refine ⟨⟨?_, h.id_eq, ?_, ?_, hparse, ?_⟩, ?_⟩
  · exact (hscheduled.mem_update (Reminder.delivered _) (fun _ => rfl) reminder.key_eq).mem
  · exact .inl (by rw [hdelivery]; rfl)
  · rw [hdelivery]
    rfl
  · rw [hdelivery]
    exact fun hsame => hne (Option.some.inj hsame).symm
  · left
    refine SortedSet.mem_remove.mpr ⟨hne, SortedSet.mem_add.mpr (.inl ?_)⟩
    rw [← h.id_eq]
    rfl

theorem handleFailure_goesOn {retryable : Bool}
    (hnames : Names s' member at_ (reminder.triggering now)) (h : Current s id reminder member at_)
    (hretries : reminder.retries config retryable = true) :
    ∃ reminder' member' at',
      InSeries ((handleFailure config (reminder.triggering now) member now retryable).eval
        (answer outcome) s').2 id reminder' member' at' := by
  refine ⟨(reminder.triggering now).retrying (reminder.retryCount + 1)
    (now + retryDelaySeconds (reminder.retryCount + 1) * second) now, member, at_, ?_⟩
  unfold handleFailure
  have hsame : (reminder.triggering now).retries config retryable = true := hretries
  simp only [hsame, if_true, eval_issue_bind, eval_issue, answer]
  refine ⟨⟨?_, h.id_eq, .inr rfl, h.scheduled, h.parsed, h.undelivered⟩, ?_⟩
  · exact (hnames.mem_update (Reminder.retrying _ _ _) (fun _ => rfl) reminder.key_eq).mem
  · exact .inr (SortedSet.mem_add.mpr (.inl rfl))

theorem answer_claimReminder
    (h : (s.find? reminderId).filter (Reminder.claimable member) = some reminder) :
    answer outcome (.claimReminder reminderId member now) s =
      (some (reminder.triggering now),
        s.update reminderId (Reminder.triggering now) fun _ => rfl) := by
  simp only [answer, h]

theorem answer_dispatch_sent (h : outcome event = .sent) :
    answer outcome (.dispatch event) s = (.sent, { s with sent := event :: s.sent }) := by
  simp only [answer, h]

theorem answer_dispatch_failed {reply : DispatchOutcome} (h : outcome event = reply)
    (hreply : reply ≠ .sent) :
    answer outcome (.dispatch event) s = (reply, s) := by
  simp only [answer, h]

theorem deliver_goesOn {type : DeliveryType} (h : Current s id reminder member at_)
    (hnames : Names s' member at_ (reminder.triggering now))
    (htype : reminder.deliveryType = some type)
    (houtcome : match outcome (reminder.event type reminder.id.str member at_ now) with
      | .sent => ∃ next, reminder.nextTrigger config at_ = some next ∧
          (parseMember (occurrenceId reminder.id.str next)).isSome = true
      | .deliveryError retryable => reminder.retries config retryable = true
      | .exception => reminder.retries config true = true) :
    ∃ reminder' member' at', InSeries ((deliver config (reminder.triggering now) id.str member at_
      now).eval (answer outcome) s').2 id reminder' member' at' := by
  have htype' : (reminder.triggering now).deliveryType = some type := htype
  rw [h.id_eq] at houtcome
  generalize hreply : outcome (reminder.event type id.str member at_ now) = reply at houtcome
  have hreply' : outcome ((reminder.triggering now).event type id.str member at_ now) = reply :=
    hreply
  unfold deliver
  rw [htype']
  dsimp only
  rw [eval_issue_bind]
  cases reply with
  | sent =>
    obtain ⟨next, hnext, hread⟩ := houtcome
    rw [answer_dispatch_sent hreply']
    exact handleSuccess_goesOn h hnames hnext (h.id_eq ▸ hread)
  | deliveryError retryable =>
    rw [answer_dispatch_failed hreply' nofun]
    exact handleFailure_goesOn hnames h houtcome
  | exception =>
    rw [answer_dispatch_failed hreply' nofun]
    exact handleFailure_goesOn hnames h houtcome

theorem execute_goesOn (h : Current s id reminder member at_)
    (hgoes : GoesOn config outcome now reminder member at_) :
    ∃ reminder' member' at',
      InSeries ((execute config member now).eval (answer outcome) s).2 id reminder' member'
        at' := by
  obtain ⟨hlate, type, htype, houtcome⟩ := hgoes
  have hclaimed : (s.find? id.str).filter (Reminder.claimable member) = some reminder :=
    Option.filter_eq_some_iff.mpr ⟨h.find, h.claimable⟩
  have hnames : Names (s.update id.str (Reminder.triggering now) fun _ => rfl) member at_
      (reminder.triggering now) :=
    h.names.mem_update (Reminder.triggering now) (fun _ => rfl)
      (by rw [id.canonical, Reminder.key, h.id_eq])
  unfold execute
  simp only [h.parsed, eval_issue_bind, answer, h.find, h.skips, Bool.false_eq_true, if_false]
  unfold claimAndDeliver
  rw [if_neg (by simp [hlate]), eval_issue_bind, answer_claimReminder hclaimed]
  exact deliver_goesOn h hnames htype houtcome

theorem executed_of_claims (h : s.claims (if member ∈ retryDue then .retry else .schedule) member
      (timestamp now) = true) :
    executed config outcome retryDue now member s =
      ((execute config member now).eval (answer outcome)
        (s.claimed (if member ∈ retryDue then .retry else .schedule) member
          (timestamp now + config.claimTtlSeconds))).2 := by
  unfold executed claimAndExecute
  dsimp only
  rw [eval_issue_bind]
  simp only [answer, h, if_true]

theorem executed_of_not_claims
    (h : ¬ s.claims (if member ∈ retryDue then .retry else .schedule) member
      (timestamp now) = true) :
    executed config outcome retryDue now member s = s := by
  unfold executed claimAndExecute
  dsimp only
  rw [eval_issue_bind]
  simp only [answer, h]
  rfl

theorem claimed_reminders : (s.claimed key member claimUntil).reminders = s.reminders := by
  cases key <;> rfl

theorem executed_inSeries (h : InSeries s id reminder current at_)
    (hgoes : s.claims (if member ∈ retryDue then .retry else .schedule) member (timestamp now) =
      true → member = current → GoesOn config outcome now reminder current at_) :
    ∃ reminder' member' at',
      InSeries (executed config outcome retryDue now member s) id reminder' member' at' := by
  by_cases hclaims : s.claims (if member ∈ retryDue then .retry else .schedule) member
    (timestamp now) = true
  · rw [executed_of_claims hclaims]
    generalize (if member ∈ retryDue then ZSetKey.retry else .schedule) = key at hclaims hgoes
    generalize timestamp now + config.claimTtlSeconds = claimUntil
    have hmem : reminder ∈ (s.claimed key member claimUntil).reminders := by
      rw [claimed_reminders]
      exact h.mem
    by_cases hsame : member = current
    · subst hsame
      refine execute_goesOn ?_ (hgoes hclaims rfl)
      exact ⟨hmem, h.id_eq, h.status, h.scheduled, h.parsed, h.undelivered⟩
    · have hspares : Spares reminder member s
          ((execute config member now).eval (answer outcome) (s.claimed key member claimUntil)).2 :=
        spares_claimed.trans (execute_spares hmem h.scheduled h.ne_empty (Ne.symm hsame))
      exact ⟨reminder, current, at_, ⟨hspares.mem h.mem, h.id_eq, h.status, h.scheduled, h.parsed,
        h.undelivered⟩, hspares.waits current (Ne.symm hsame) h.waits⟩
  · rw [executed_of_not_claims hclaims]
    exact ⟨reminder, current, at_, h⟩

theorem executions_inSeries {members : List String} (h : InSeries s id reminder current at_)
    (hgoes : ∀ execution ∈ executions config outcome retryDue now members s,
      ∀ reminder occurrenceAt, InSeries execution.2 id reminder execution.1 occurrenceAt →
      GoesOn config outcome now reminder execution.1 occurrenceAt) :
    ∃ reminder' member' at', InSeries ((forEach (claimAndExecute config retryDue now) members).eval
      (answer outcome) s).2 id reminder' member' at' := by
  induction members generalizing s reminder current at_ with
  | nil => exact ⟨reminder, current, at_, h⟩
  | cons member members ih =>
    rw [eval_forEach_cons]
    rw [executions] at hgoes
    obtain ⟨reminder', current', at', h'⟩ : ∃ reminder' member' at',
        InSeries (executed config outcome retryDue now member s) id reminder' member' at' := by
      refine executed_inSeries h fun hclaims hsame => ?_
      rw [if_pos hclaims] at hgoes
      subst hsame
      exact hgoes _ List.mem_cons_self reminder at_ h
    refine ih h' fun execution hexecution => hgoes execution ?_
    by_cases hclaims : s.claims (if member ∈ retryDue then .retry else .schedule) member
      (timestamp now) = true
    · rw [if_pos hclaims]
      exact List.mem_cons_of_mem _ hexecution
    · rw [if_neg hclaims]
      exact hexecution

theorem ticked_eq : ticked config outcome s =
    ((forEach (claimAndExecute config (s.dueMembers .retry (timestamp s.clock) config.batchSize)
      s.clock) (s.dueMembers .schedule (timestamp s.clock) config.batchSize ++
        s.dueMembers .retry (timestamp s.clock) config.batchSize)).eval (answer outcome) s).2 := by
  rw [ticked, tick, eval_issue_bind, eval_issue_bind, eval_issue_bind]
  rfl

theorem recovered_inSeries (h : InSeries s id reminder member at_) :
    InSeries (recovered config outcome s) id reminder member at_ := by
  have hread : (parseOccurrenceId member).isSome = true := by
    have hparse := h.parsed
    unfold parseMember at hparse
    obtain ⟨parsed, hparsed, -⟩ := Option.bind_eq_some_iff.mp hparse
    rw [hparsed]
    rfl
  refine ⟨⟨?_, h.id_eq, h.status, h.scheduled, h.parsed, h.undelivered⟩, ?_⟩
  · rw [recovered_reminders]
    exact h.mem
  · exact waits_recovered.mpr ⟨fun _ => hread, .inr (.inl h.waits)⟩

theorem SeriesStep.inSeries (hstep : SeriesStep config id s s')
    (h : InSeries s id reminder member at_) :
    ∃ reminder' member' at', InSeries s' id reminder' member' at' := by
  cases hstep with
  | recover outcome => exact ⟨reminder, member, at_, recovered_inSeries h⟩
  | elapse clock hclock =>
    exact ⟨reminder, member, at_, ⟨h.mem, h.id_eq, h.status, h.scheduled, h.parsed,
      h.undelivered⟩, h.waits⟩
  | tick outcome hgoes =>
    rw [ticked_eq]
    exact executions_inSeries h hgoes

theorem InSeries.alive (h : InSeries s id reminder member at_) : Alive s id :=
  ⟨reminder, h.mem, h.id_eq, h.status, member, h.scheduled, h.waits⟩

end Series

/-- A reminder that goes on after each of its executed occurrences is alive throughout. -/
theorem series_stays_alive {config : Config} {id : ReminderId} {start s : State}
    {reminder : Reminder} {member : String} {occurrenceAt : Instant}
    (hstart : InSeries start id reminder member occurrenceAt)
    (hrun : Relation.ReflTransGen (SeriesStep config id) start s) : Alive s id := by
  have hseries : ∃ reminder member occurrenceAt, InSeries s id reminder member occurrenceAt := by
    induction hrun with
    | refl => exact ⟨reminder, member, occurrenceAt, hstart⟩
    | tail _ hstep ih =>
      obtain ⟨reminder, member, occurrenceAt, h⟩ := ih
      exact hstep.inSeries h
  obtain ⟨reminder, member, occurrenceAt, h⟩ := hseries
  exact h.alive

/-! A reminder that repeats every day, and its occurrence in the schedule. -/

def sampleDaily : Reminder :=
  { sampleReminder with
    dateKey := "2024-10-04"
    timeLabel := "12:00 AM"
    timezone := some "UTC"
    repetition := .daily }

def sampleDailyAt (clock : Instant) : State :=
  { sampleState with clock, reminders := [sampleDaily] }

theorem sampleDaily_inSeries {clock : Instant} :
    InSeries (sampleDailyAt clock) ⟨"r1", by decide, by decide, by decide⟩ sampleDaily sampleMember
      (20000 * day) :=
  ⟨⟨List.mem_singleton_self _, rfl, .inl rfl, rfl, by decide +kernel, by decide⟩,
    .inl (SortedSet.mem_add.mpr (.inl rfl))⟩

theorem series_stays_alive_sample :
    Alive (ticked sampleConfig (fun _ => .sent) (sampleDailyAt (20000 * day)))
      ⟨"r1", by decide, by decide, by decide⟩ := by
  have hstep : SeriesStep sampleConfig ⟨"r1", by decide, by decide, by decide⟩
      (sampleDailyAt (20000 * day))
      (ticked sampleConfig (fun _ => .sent) (sampleDailyAt (20000 * day))) := by
    refine .tick (fun _ => .sent) fun execution hexecution reminder occurrenceAt h => ?_
    have hround : roundExecutions sampleConfig (fun _ => .sent) (sampleDailyAt (20000 * day)) =
        [(sampleMember, sampleDailyAt (20000 * day))] := rfl
    rw [hround] at hexecution
    obtain rfl := List.mem_singleton.mp hexecution
    obtain rfl := List.mem_singleton.mp h.mem
    obtain ⟨rfl, -⟩ := h.names.unique (sampleDaily_inSeries).names
    exact ⟨by decide +kernel, .normalNotification, rfl, 20001 * day, by decide +kernel,
      by decide +kernel⟩
  exact series_stays_alive sampleDaily_inSeries (.single hstep)

/-- The occurrence of a valid daily reminder is found 301 seconds late. The reminder becomes FAILED,
and nothing is scheduled. -/
theorem late_occurrence_ends_series :
    (zonedLocalToUtc sampleConfig.zones sampleDaily.dateKey sampleDaily.timeLabel
      sampleDaily.timezone).isSome = true ∧
    InSeries (sampleDailyAt (20000 * day + 301 * second)) ⟨"r1", by decide, by decide, by decide⟩
      sampleDaily sampleMember (20000 * day) ∧
    ¬ Alive (ticked sampleConfig (fun _ => .sent) (sampleDailyAt (20000 * day + 301 * second)))
      ⟨"r1", by decide, by decide, by decide⟩ := by
  refine ⟨by decide +kernel, sampleDaily_inSeries, ?_⟩
  rintro ⟨reminder, hmem, -, hstatus, -⟩
  have hreminders : (ticked sampleConfig (fun _ => .sent)
      (sampleDailyAt (20000 * day + 301 * second))).reminders =
        [sampleDaily.failed (20000 * day + 301 * second)] := by decide +kernel
  rw [hreminders] at hmem
  obtain rfl := List.mem_singleton.mp hmem
  rcases hstatus with hstatus | hstatus <;> cases hstatus

end AiBuddy.Reminders
