import AiBuddy.Reminders.Proofs.Delivery

/-!
# The calls of a worker keep the occurrences apart

Each command of `recover` and `tick` takes an orderly state to an orderly one, whatever the other
calls hold.
-/

namespace AiBuddy.Reminders

open Program Redis

variable {reminder : Reminder}

section Calls

variable {α : Type} {config : Config} {held : Holding} {others holdings : List Holding}
  {s s' : State}
  {member reminderId text : String} {at_ now : Instant} {rest : Working Unit}

abbrev Keeps (post : α → Holding → Prop) (held : Holding) (prog : Working α) : Prop :=
  Holds (workerSemantics SparesWaiting) Orderly post held prog

def Freed (_ : Unit) (held : Holding) : Prop := held = .free

theorem Owned.checked {id : ReminderId} (h : Owned s member id at_) :
    (Holding.checked member).Phase s := by
  obtain ⟨reminder, hnames, -, -, hscheduled⟩ := h
  intro occurrenceAt reminder' hnames' hclaimable
  obtain ⟨-, rfl⟩ := hnames.unique hnames'
  exact hscheduled

theorem names_of_key (hparse : parseMember member = some (reminderId, at_))
    (hmem : reminder ∈ s.reminders) (hkey : reminder.key = idFilter reminderId) :
    Names s member at_ reminder :=
  ⟨reminderId, hparse, (Keyed.find?_eq_some_iff s.ids_nodup).mpr ⟨hmem, hkey⟩⟩

theorem checked_mine (h : (Holding.checked member).Phase s)
    (hparse : parseMember member = some (reminderId, at_))
      (hid : idFilter text = idFilter reminderId) :
    ∀ reminder ∈ s.reminders, reminder.key = idFilter text →
      reminder.deliveryStatus.claimable = true → reminder.scheduledOccurrenceId = some member :=
  fun reminder hmem hkey => h at_ reminder (names_of_key hparse hmem (hkey.trans hid))

theorem time_of_parse (hparse : parseMember member = some (reminderId, at_)) :
    (parseMember member).map Prod.snd = some at_ := by
  rw [hparse]
  rfl

theorem keeps_read {β : Type} {command : Command β} {post : α → Holding → Prop}
    {next : β → Working α} (hread : ∀ outcome s, (answer outcome command s).2 = s)
    (hnext : ∀ reply, Keeps post held (next reply)) : Keeps post held (issue command >>= next) := by
  refine Holds.issue_bind fun others s reply s' h hstep => ?_
  obtain ⟨-, ⟨outcome, hanswer⟩, -⟩ := hstep
  obtain rfl : s' = s := by rw [← hread outcome s, hanswer]
  exact ⟨held, h, hnext reply⟩

theorem keeps_complete : Keeps Freed (.held member) (issue (.complete member)) := by
  refine Holds.issue fun others s reply s' h hstep => ?_
  obtain ⟨-, ⟨outcome, hanswer⟩, htimely⟩ := hstep
  cases hanswer
  exact ⟨.free, h.complete htimely, rfl⟩

theorem keeps_retryAt {score : Int} :
    Keeps Freed (.held member) (issue (.retryAt member score)) := by
  refine Holds.issue fun others s reply s' h hstep => ?_
  obtain ⟨-, ⟨outcome, hanswer⟩, htimely⟩ := hstep
  cases hanswer
  exact ⟨.free, h.retryAt htimely, rfl⟩

theorem keeps_deadLetterPush {payload : String} (hrest : Keeps Freed (.held member) rest) :
    Keeps Freed (.held member) (issue (.deadLetterPush payload) >>= fun _ => rest) := by
  refine Holds.issue_bind fun others s reply s' h hstep => ?_
  obtain ⟨-, ⟨outcome, hanswer⟩, htimely⟩ := hstep
  cases hanswer
  exact ⟨.held member, h.learn rfl rfl (Int.le_refl _) htimely rfl rfl rfl rfl trivial nofun, hrest⟩

theorem keeps_write {command : Command Unit} {change : Reminder → Reminder}
    {hid : ∀ reminder, (change reminder).key = reminder.key}
    (hcommand : ∀ outcome s, answer outcome command s = ((), s.update text change hid))
    (hmember : held.member? = some member) (hparse : parseMember member = some (reminderId, at_))
    (htext : idFilter text = idFilter reminderId)
    (hchecked : ∀ s, held.Phase s → (Holding.checked member).Phase s)
    (hchange : ∀ s, held.Phase s → ∀ reminder ∈ s.reminders, reminder.key = idFilter text →
      (change reminder).deliveryStatus.claimable = true → reminder.deliveryStatus.claimable = true ∧
      ∃ current, (change reminder).scheduledOccurrenceId = some current ∧ current ≠ "" ∧
      (current = member ∨ Before member current))
    (hrecorded : ∀ s, held.Phase s → held.unrecorded? = some member →
      Past (s.update text change hid) member)
    (hrest : Keeps Freed (.held member) rest) :
    Keeps Freed held (issue command >>= fun _ => rest) := by
  refine Holds.issue_bind fun others s reply s' h hstep => ?_
  obtain ⟨-, ⟨outcome, hanswer⟩, htimely⟩ := hstep
  rw [hcommand] at hanswer
  cases hanswer
  have hphase := h.phases held List.mem_cons_self
  exact ⟨.held member, h.updated hmember rfl (time_of_parse hparse)
    (checked_mine (hchecked s hphase) hparse htext) (hchange s hphase) htimely trivial
    (fun hunrecorded => .inr (hrecorded s hphase hunrecorded)), hrest⟩

theorem keeps_markFailed (hmember : held.member? = some member)
    (hunrecorded : held.unrecorded? = none)
    (hparse : parseMember member = some (reminderId, at_))
      (htext : idFilter text = idFilter reminderId)
    (hchecked : ∀ s, held.Phase s → (Holding.checked member).Phase s)
    (hrest : Keeps Freed (.held member) rest) :
    Keeps Freed held (issue (.markFailed text now) >>= fun _ => rest) := by
  refine keeps_write (fun _ _ => rfl) hmember hparse htext
    hchecked ?_ ?_ hrest
  · intro s _ reminder _ _ hclaimable
    cases hclaimable
  · intro s _ hsome
    rw [hunrecorded] at hsome
    cases hsome

theorem keeps_claimReminder {next : Option Reminder → Working Unit}
    (hparse : parseMember member = some (reminderId, at_))
    (hnone : Keeps Freed (.held member) (next none))
    (hsome : ∀ claimed : Reminder, claimed.id.str = idFilter reminderId →
      Keeps Freed (.live member claimed.id at_) (next (some claimed))) :
    Keeps Freed (.checked member) (issue (.claimReminder reminderId member now) >>= next) := by
  refine Holds.issue_bind fun others s reply s' h hstep => ?_
  obtain ⟨-, ⟨outcome, hanswer⟩, htimely⟩ := hstep
  have hchecked : (Holding.checked member).Phase s := h.phases _ List.mem_cons_self
  simp only [answer] at hanswer
  split at hanswer
  · cases hanswer
    refine ⟨.held member, h.learn rfl rfl (Int.le_refl _) htimely rfl rfl rfl rfl trivial ?_, hnone⟩
    intro _ hunrecorded
    cases hunrecorded
  · next reminder hfound =>
    cases hanswer
    obtain ⟨hfind, hfilter⟩ := Option.filter_eq_some_iff.mp hfound
    have hclaimable : reminder.deliveryStatus.claimable = true :=
      (Bool.and_eq_true_iff.mp hfilter).2
    have hkey : reminder.key = idFilter reminderId := (Keyed.find?_eq_some hfind).2
    have hnames : Names s member at_ reminder := ⟨reminderId, hparse, hfind⟩
    have hscheduled := hchecked at_ reminder hnames hclaimable
    have hmine := checked_mine hchecked hparse (rfl : idFilter reminderId = _)
    have hzero : s.sentCount member = 0 := by
      by_contra hne
      have hone : s.sentCount member = 1 := by
        have hle := h.once member
        omega
      rcases h.recorded member hone with hpast | ⟨holding, hholding, hother⟩
      · obtain ⟨current, hcurrent, hbefore⟩ := hpast at_ reminder hnames hclaimable
        rw [hscheduled] at hcurrent
        obtain rfl := Option.some.inj hcurrent
        exact before_self hnames.time hbefore
      · rcases List.mem_cons.mp hholding with rfl | hholding
        · cases hother
        · refine (h.sole rfl : ∀ holding ∈ others, holding.member? ≠ some member) holding hholding
            ?_
          cases holding <;> first | exact hother | cases hother
    refine ⟨.live member reminder.id at_, h.updated rfl rfl hnames.time hmine ?_ htimely
      ⟨⟨reminder.triggering now, ?_, rfl, rfl, hscheduled⟩, hzero⟩ ?_,
      hsome (reminder.triggering now) hkey⟩
    · intro other hmem hother _
      obtain rfl : other = reminder :=
        Keyed.eq_of_key s.ids_nodup hmem hnames.mem (hother.trans hkey.symm)
      refine ⟨hclaimable, member, hscheduled, ?_, .inl rfl⟩
      obtain ⟨current, hcurrent, hne⟩ := h.named other hmem hclaimable
      rw [hscheduled] at hcurrent
      exact Option.some.inj hcurrent ▸ hne
    · exact names_update.mpr ⟨reminder, hnames, (if_pos hkey).symm⟩
    · intro hunrecorded
      cases hunrecorded

variable {claimed : Reminder}

theorem idFilter_claimed (hclaimed : claimed.id.str = idFilter reminderId) :
    idFilter claimed.id.str = idFilter reminderId := claimed.id.canonical.trans hclaimed

theorem Owned.eq_of_key {id : ReminderId} (h : Owned s member id at_)
    (hmem : reminder ∈ s.reminders) (hkey : reminder.key = idFilter id.str) :
    reminder.deliveryStatus = .triggering ∧ reminder.scheduledOccurrenceId = some member ∧
      Names s member at_ reminder := by
  obtain ⟨owned, hnames, rfl, hstatus, hscheduled⟩ := h
  obtain rfl : reminder = owned :=
    Keyed.eq_of_key s.ids_nodup hmem hnames.mem (hkey.trans owned.id.canonical)
  exact ⟨hstatus, hscheduled, hnames⟩

theorem keeps_handleFailure {retryable : Bool}
    (hparse : parseMember member = some (reminderId, at_))
    (hclaimed : claimed.id.str = idFilter reminderId) (hne : member ≠ "") :
    Keeps Freed (.live member claimed.id at_)
      (handleFailure config claimed member now retryable) := by
  have hchecked : ∀ s, (Holding.live member claimed.id at_).Phase s →
      (Holding.checked member).Phase s := fun s hphase => hphase.1.checked
  unfold handleFailure
  dsimp only
  split
  · refine keeps_write
      (fun _ _ => rfl) rfl hparse (idFilter_claimed hclaimed) hchecked ?_ ?_ keeps_retryAt
    · intro s hphase reminder hmem hkey _
      obtain ⟨hstatus, hscheduled, -⟩ := hphase.1.eq_of_key hmem hkey
      exact ⟨by rw [hstatus]; rfl, member, hscheduled, hne, .inl rfl⟩
    · intro s _ hsome
      cases hsome
  · exact keeps_markFailed rfl rfl hparse (idFilter_claimed hclaimed) hchecked
      (keeps_deadLetterPush keeps_complete)

theorem keeps_markDelivered {next : Option Instant}
    (hparse : parseMember member = some (reminderId, at_))
    (hclaimed : claimed.id.str = idFilter reminderId)
    (hnext : claimed.nextTrigger config at_ = next) :
    Keeps Freed (.sent member claimed.id at_) (do
      issue (.markDelivered claimed.id.str (claimed.delivery config member at_ now))
      issue (.complete member)) := by
  have hlater : ∀ value, next = some value →
      Before member (occurrenceId claimed.id.str value) := by
    rintro value rfl first last hfirst hlast
    obtain ⟨hlt, hdvd⟩ := nextTrigger_eq_some hnext
    rw [time_of_parse hparse] at hfirst
    obtain rfl := Option.some.inj hfirst
    obtain ⟨⟨text, found⟩, hfound, rfl⟩ := Option.map_eq_some_iff.mp hlast
    obtain ⟨-, rfl⟩ := parseMember_occurrenceId hfound
    rw [Int.ediv_mul_cancel hdvd]
    exact hlt
  have hdelivered : ∀ reminder : Reminder,
      (reminder.delivered (claimed.delivery config member at_ now)).deliveryStatus.claimable =
        true → ∃ value, next = some value ∧
          (reminder.delivered (claimed.delivery config member at_ now)).scheduledOccurrenceId =
            some (occurrenceId claimed.id.str value) := by
    intro reminder hclaimable
    unfold Reminder.delivery at hclaimable ⊢
    rw [hnext] at hclaimable ⊢
    cases next with
    | none => cases hclaimable
    | some value => exact ⟨value, rfl, rfl⟩
  refine keeps_write (fun _ _ => rfl) rfl hparse
    (idFilter_claimed hclaimed) (fun s hphase => Owned.checked hphase) ?_ ?_ keeps_complete
  · intro s hphase reminder hmem hkey hclaimable
    obtain ⟨hstatus, -, -⟩ := Owned.eq_of_key hphase hmem hkey
    obtain ⟨value, hvalue, hscheduled⟩ := hdelivered reminder hclaimable
    exact ⟨by rw [hstatus]; rfl, _, hscheduled, occurrenceId_ne_empty _ _,
      .inr (hlater value hvalue)⟩
  · intro s hphase _ occurrenceAt reminder' hnames hclaimable
    obtain ⟨reminder, hdoc, rfl⟩ := names_update.mp hnames
    obtain ⟨owned, hown, hid, -⟩ := hphase
    obtain ⟨-, rfl⟩ := hown.unique hdoc
    have hkey : owned.key = idFilter claimed.id.str := by
      rw [claimed.id.canonical, Reminder.key, hid]
    rw [if_pos hkey] at hclaimable ⊢
    obtain ⟨value, hvalue, hscheduled⟩ := hdelivered owned hclaimable
    exact ⟨_, hscheduled, hlater value hvalue⟩

theorem keeps_handleSuccess (hparse : parseMember member = some (reminderId, at_))
    (hclaimed : claimed.id.str = idFilter reminderId) :
    Keeps Freed (.sent member claimed.id at_) (handleSuccess config claimed member at_ now) := by
  unfold handleSuccess
  cases hnext : claimed.nextTrigger config at_ with
  | none => exact keeps_markDelivered hparse hclaimed hnext
  | some next =>
    refine Holds.issue_bind fun others s reply s' h hstep => ?_
    obtain ⟨⟨hretry, hprocessing⟩, ⟨outcome, hanswer⟩, htimely⟩ := hstep
    cases hanswer
    exact ⟨_, h.schedule hretry hprocessing htimely (h.phases _ List.mem_cons_self),
      keeps_markDelivered hparse hclaimed hnext⟩

theorem keeps_deliver (hparse : parseMember member = some (reminderId, at_))
    (hclaimed : claimed.id.str = idFilter reminderId) (hne : member ≠ "") :
    Keeps Freed (.live member claimed.id at_)
      (deliver config claimed reminderId member at_ now) := by
  unfold deliver
  split
  · exact keeps_markFailed rfl rfl hparse rfl (fun s hphase => Owned.checked hphase.1)
      (keeps_deadLetterPush keeps_complete)
  · next type htype =>
    refine Holds.issue_bind fun others s reply s' h hstep => ?_
    obtain ⟨-, ⟨outcome, hanswer⟩, htimely⟩ := hstep
    simp only [answer] at hanswer
    split at hanswer
    · cases hanswer
      exact ⟨_, h.dispatched rfl htimely, keeps_handleSuccess hparse hclaimed⟩
    · next failure hfailure =>
      cases hanswer
      refine ⟨_, h, ?_⟩
      cases hreply : outcome (claimed.event type reminderId member at_ now) with
      | sent => exact absurd hreply hfailure
      | deliveryError retryable => exact keeps_handleFailure hparse hclaimed hne
      | exception => exact keeps_handleFailure hparse hclaimed hne

theorem keeps_claimAndDeliver (hparse : parseMember member = some (reminderId, at_))
    (hne : member ≠ "") :
    Keeps Freed (.checked member) (claimAndDeliver config reminderId member at_ now) := by
  unfold claimAndDeliver
  split
  · exact keeps_markFailed rfl rfl hparse rfl (fun _ => id) keeps_complete
  · exact keeps_claimReminder hparse keeps_complete
      fun claimed hclaimed => keeps_deliver hparse hclaimed hne

theorem scheduled_of_not_skips {current : String}
    (hcurrent : reminder.scheduledOccurrenceId = some current) (hne : current ≠ "")
    (hskips : ¬ reminder.skips member = true) : reminder.scheduledOccurrenceId = some member := by
  by_contra hother
  refine hskips ?_
  have hdiffers : current ≠ member := fun hsame => hother (hsame ▸ hcurrent)
  simp [Reminder.skips, hcurrent, hne, hdiffers]

theorem parseMember_empty : parseMember "" = none := by decide

theorem keeps_execute : Keeps Freed (.held member) (execute config member now) := by
  unfold execute
  split
  · exact keeps_deadLetterPush keeps_complete
  · next reminderId at_ hparse =>
    have hne : member ≠ "" := by
      rintro rfl
      rw [parseMember_empty] at hparse
      cases hparse
    refine Holds.issue_bind fun others s reply s' h hstep => ?_
    obtain ⟨-, ⟨outcome, hanswer⟩, htimely⟩ := hstep
    cases hanswer
    split
    · exact ⟨_, h, keeps_complete⟩
    · next reminder hfind =>
      split
      · exact ⟨_, h, keeps_complete⟩
      · next hskips =>
        refine ⟨.checked member, h.learn rfl rfl (Int.le_refl _) htimely rfl rfl rfl rfl ?_ nofun,
          keeps_claimAndDeliver hparse hne⟩
        intro occurrenceAt other hnames hclaimable
        obtain ⟨-, rfl⟩ := hnames.unique ⟨reminderId, hparse, hfind⟩
        obtain ⟨current, hcurrent, hcurrentNe⟩ := h.named other hnames.mem hclaimable
        exact scheduled_of_not_skips hcurrent hcurrentNe hskips

theorem mem_of_claims {key : ZSetKey} {nowTs : Int} (h : s.claims key member nowTs = true) :
    member ∈ s.zset key := by
  unfold State.claims at h
  split at h
  · cases h
  · next score hscore => exact SortedSet.score_isSome.mp (by rw [hscore]; rfl)

theorem keeps_claimAndExecute {retryDue : List String} :
    Keeps Freed .free (claimAndExecute config retryDue now member) := by
  unfold claimAndExecute
  generalize (if member ∈ retryDue then ZSetKey.retry else .schedule) = key
  refine Holds.issue_bind fun others s reply s' h hstep => ?_
  obtain ⟨-, ⟨outcome, hanswer⟩, htimely⟩ := hstep
  simp only [answer] at hanswer
  split at hanswer
  · next hclaims =>
    cases hanswer
    exact ⟨.held member, h.claim (mem_of_claims hclaims) htimely, keeps_execute⟩
  · cases hanswer
    exact ⟨.free, h, rfl⟩

theorem keeps_tick : Keeps (fun _ _ => True) .free (tick config) := by
  refine keeps_read (fun _ _ => rfl) fun now => ?_
  refine keeps_read (fun _ _ => rfl) fun due => ?_
  refine keeps_read (fun _ _ => rfl) fun retryDue => ?_
  have hloop : Keeps Freed .free
      (forEach (claimAndExecute config retryDue now) (due ++ retryDue)) := by
    refine Holds.forEach rfl ?_
    rintro member - held rfl
    exact keeps_claimAndExecute
  exact hloop.mono fun _ _ _ => trivial

theorem rangeByScore_eq_nil (htimely : Timely s) (hnow : now ≤ s.clock) :
    s.processing.rangeByScore 0 (timestamp now) = [] := by
  rw [List.eq_nil_iff_forall_not_mem]
  intro member hmem
  obtain ⟨value, hvalue, -, hle⟩ := SortedSet.mem_rangeByScore.mp hmem
  have hlt := htimely member value hvalue
  have hmono : timestamp now ≤ timestamp s.clock :=
    Int.tdiv_le_tdiv (show (0 : Int) < second by decide) hnow
  omega

theorem keeps_recoverReminder :
    Keeps (fun _ held => held = .recovering now) (.recovering now) (recoverReminder reminder) := by
  unfold recoverReminder
  split
  · exact rfl
  · next next hnext =>
    refine keeps_read (fun _ _ => rfl) fun already => ?_
    split
    · exact rfl
    · refine Holds.issue fun others s reply s' h hstep => ?_
      obtain ⟨⟨hretry, hprocessing⟩, ⟨outcome, hanswer⟩, htimely⟩ := hstep
      cases hanswer
      exact ⟨_, h.schedule hretry hprocessing htimely (h.phases _ List.mem_cons_self), rfl⟩

theorem keeps_recover : Keeps (fun _ _ => True) .free (recover config) := by
  refine Holds.issue_bind fun others s now s' h hstep => ⟨.recovering now, ?_, ?_⟩
  · obtain ⟨-, ⟨outcome, hanswer⟩, htimely⟩ := hstep
    cases hanswer
    exact h.learn rfl rfl (Int.le_refl _) htimely rfl rfl rfl rfl (Int.le_refl _) nofun
  refine keeps_read (fun _ _ => rfl) fun upcoming => ?_
  have hloop : Keeps (fun _ held => held = .recovering now) (.recovering now)
      (forEach recoverReminder upcoming) := by
    refine Holds.forEach rfl ?_
    rintro reminder - held rfl
    exact keeps_recoverReminder
  refine hloop.then fun _ held hheld => ?_
  subst hheld
  -- no claim has expired, and the second loop has nothing to do
  refine Holds.issue_bind fun others s expired s' h hstep => ⟨.recovering now, ?_⟩
  obtain ⟨-, ⟨outcome, hanswer⟩, -⟩ := hstep
  cases hanswer
  have hphase : now ≤ s.clock := h.phases (.recovering now) List.mem_cons_self
  rw [rangeByScore_eq_nil h.timely hphase]
  exact ⟨h, trivial⟩

theorem Orderly.elapse (h : Orderly holdings s) (hmove : Elapses s s') : Orderly holdings s' := by
  obtain ⟨clock, hclock, rfl, htimely⟩ := hmove
  refine ⟨htimely, h.named, h.alone, h.claimed, ?_, h.once, h.recorded⟩
  intro holding hholding
  refine phase_congr ?_ ?_ ?_ (h.phases holding hholding)
  · rfl
  · rfl
  · exact hclock

theorem Orderly.spawn (h : Orderly holdings s) : Orderly (.free :: holdings) s := by
  have hholders : ∀ member, holders (Holding.free :: holdings) member = holders holdings member :=
    fun member => holders_cons
  refine ⟨h.timely, h.named, ?_, ?_, ?_, h.once, ?_⟩
  · intro member
    rw [hholders]
    exact h.alone member
  · intro member
    rw [hholders]
    exact h.claimed member
  · intro holding hholding
    rcases List.mem_cons.mp hholding with rfl | hholding
    · trivial
    · exact h.phases holding hholding
  · intro member hone
    refine (h.recorded member hone).imp_right ?_
    rintro ⟨holding, hholding, hmember⟩
    exact ⟨holding, List.mem_cons_of_mem _ hholding, hmember⟩

theorem Planned.orderly (h : Planned s) : Orderly [] s := by
  have hcount : ∀ member, s.sentCount member = 0 := by
    intro member
    rw [State.sentCount, h.unsent]
    rfl
  refine ⟨?_, h.named, ?_, ?_, ?_, ?_, ?_⟩
  · intro member value hvalue
    exact absurd (SortedSet.score_isSome.mp (by rw [hvalue]; rfl)) (h.idle member)
  · intro member
    have hempty : holders [] member = 0 := rfl
    rw [hempty, Nat.add_zero, State.places]
    by_cases hschedule : member ∈ s.schedule
    · rw [if_pos hschedule, if_neg (h.apart member hschedule)]
    · rw [if_neg hschedule]
      split <;> decide
  · intro member hpos
    cases hpos
  · intro holding hholding
    cases hholding
  · intro member
    rw [hcount]
    exact Nat.zero_le 1
  · intro member hone
    rw [hcount] at hone
    cases hone

end Calls

theorem worker_run_orderly {start : State} {pool : Pool Command Unit State} (hstart : Planned start)
    (hrun : WorkerRun SparesWaiting start pool) :
      pool.Held (workerSemantics SparesWaiting) Orderly := by
  refine Pool.Run.held (fun _ _ _ hperm h => h.perm hperm) ?_ (fun _ _ _ h hmove => h.elapse hmove)
    hstart.orderly hrun
  rintro holdings s prog h ⟨config, rfl | rfl⟩
  · exact ⟨.free, keeps_recover, h.spawn⟩
  · exact ⟨.free, keeps_tick, h.spawn⟩

/-- Where nothing is scheduled that waits for its retry or is being executed, no occurrence is
sent twice. -/
theorem sent_once {start : State} {pool : Pool Command Unit State} (hstart : Planned start)
    (hrun : WorkerRun SparesWaiting start pool) :
    (pool.shared.sent.map TriggerEvent.eventId).Nodup := by
  obtain ⟨holdings, -, h⟩ := worker_run_orderly hstart hrun
  rw [List.nodup_iff_count_le_one]
  intro member
  have hcount : (pool.shared.sent.map TriggerEvent.eventId).count member =
      pool.shared.sentCount member := by
    rw [List.count, List.countP_map, State.sentCount]
    exact List.countP_congr fun event _ => by simp
  rw [hcount]
  exact h.once member

/-! Two rounds and a recovery find one occurrence in the schedule. -/

def sampleZone : Zone := ⟨fun _ => (0, false), fun _ _ => 0⟩

def sampleConfig : Config where
  zones := ⟨fun name => if name = "UTC" then some sampleZone else none, sampleZone⟩

def sampleMember : String := "r1:2024-10-04T00:00:00Z"

def sampleReminder : Reminder where
  id := ⟨"r1", by decide, by decide, by decide⟩
  userId := "u1"
  deliveryStatus := .scheduled
  scheduledOccurrenceId := some sampleMember
  nextTriggerAtUtc := some (20000 * day)
  deliveryType := some .normalNotification

def sampleState : State where
  clock := 20000 * day
  schedule := SortedSet.empty.add sampleMember (timestamp (20000 * day))
  reminders := [sampleReminder]

def sampleWorkers : Pool Command Unit State :=
  ⟨[tick sampleConfig, tick sampleConfig, recover sampleConfig], sampleState⟩

def sampleWorkersAfter (order : List Nat) : Pool Command Unit State :=
  sampleWorkers.turns (answer fun _ => .sent) order

def timelyAfter {β : Type} (command : Command β) (s : State) : Bool :=
  let after := (answer (fun _ => .sent) command s).2
  after.processing.entries.all fun entry => timestamp after.clock < entry.2

def sparesWaiting {β : Type} (command : Command β) (s : State) : Bool :=
  match command with
  | .schedule member _ => member ∉ s.retry && member ∉ s.processing
  | _ => true

theorem sampleState_planned : Planned sampleState where
  named := by
    intro reminder hmem _
    obtain rfl := List.mem_singleton.mp hmem
    exact ⟨sampleMember, rfl, by decide⟩
  apart _ _ := SortedSet.notMem_empty
  idle _ := SortedSet.notMem_empty
  unsent := rfl

theorem sampleWorkers_run (allowed : Condition)
    (check : ∀ {β : Type}, Command β → State → Bool)
    (hallowed : ∀ {β : Type} (command : Command β) s, check command s = true → allowed command s)
    (order : List Nat)
    (h : sampleWorkers.turnsPass (answer fun _ => .sent)
      (fun command s => check command s && timelyAfter command s) order = true) :
    WorkerRun allowed sampleState (sampleWorkersAfter order) := by
  have hstarted : WorkerRun allowed sampleState sampleWorkers :=
    ((Relation.ReflTransGen.single (.spawn ⟨sampleConfig, .inl rfl⟩)).tail
      (.spawn ⟨sampleConfig, .inr rfl⟩)).tail (.spawn ⟨sampleConfig, .inr rfl⟩)
  apply hstarted.trans
  apply Pool.turns_run (fun command s => check command s && timelyAfter command s) _ order _ h
  intro β command s hcheck
  obtain ⟨hpasses, htimely⟩ := Bool.and_eq_true_iff.mp hcheck
  refine ⟨hallowed command s hpasses, ⟨fun _ => .sent, rfl⟩, ?_⟩
  intro member value hvalue
  have hentry := List.all_eq_true.mp htimely (member, value) (SortedSet.score_eq_some.mp hvalue)
  exact of_decide_eq_true hentry

theorem sparesWaiting_sound {β : Type} {command : Command β} {s : State}
    (h : sparesWaiting command s = true) : SparesWaiting command s := by
  cases command with
  | schedule member score =>
    obtain ⟨hretry, hprocessing⟩ := Bool.and_eq_true_iff.mp h
    exact ⟨of_decide_eq_true hretry, of_decide_eq_true hprocessing⟩
  | _ => trivial

theorem sent_once_sample :
    (sampleWorkersAfter [2, 2, 2, 2, 0, 0, 0, 0, 1, 1, 1, 1, 0, 0, 0, 0, 0]).shared.sent.map
        TriggerEvent.eventId = [sampleMember] ∧
      ((sampleWorkersAfter [2, 2, 2, 2, 0, 0, 0, 0, 1, 1, 1, 1, 0, 0, 0, 0, 0]).shared.sent.map
        TriggerEvent.eventId).Nodup :=
  ⟨by decide +kernel, sent_once sampleState_planned
    (sampleWorkers_run _ sparesWaiting (fun command s h => sparesWaiting_sound h) _
      (by decide +kernel))⟩

/-- A worker recovers and has read the reminder as SCHEDULED when another one claims the
occurrence and sends it. The occurrence is in no set that `recover` looks at and is scheduled
again, and the next round sends it again: its reminder is TRIGGERING, which can be claimed. -/
theorem recovered_occurrence_sent_twice :
    Planned sampleState ∧
    WorkerRun (fun _ _ => True) sampleState (sampleWorkersAfter
      [2, 2, 0, 0, 0, 0, 0, 0, 0, 2, 2, 2, 1, 1, 1, 1, 1, 1, 1]) ∧
    (sampleWorkersAfter [2, 2, 0, 0, 0, 0, 0, 0, 0, 2, 2, 2, 1, 1, 1, 1, 1, 1, 1]).shared.sent.map
      TriggerEvent.eventId = [sampleMember, sampleMember] ∧
    ¬ ((sampleWorkersAfter
      [2, 2, 0, 0, 0, 0, 0, 0, 0, 2, 2, 2, 1, 1, 1, 1, 1, 1, 1]).shared.sent.map
        TriggerEvent.eventId).Nodup :=
  ⟨sampleState_planned,
    sampleWorkers_run _ (fun _ _ => true) (fun _ _ _ => trivial) _ (by decide +kernel),
    by decide +kernel, by decide +kernel⟩

end AiBuddy.Reminders
