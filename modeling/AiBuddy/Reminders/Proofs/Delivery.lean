import AiBuddy.Reminders.Proofs.Occurrence

/-!
# Occurrences are sent once

An occurrence waits in one set or is being executed by one call, and only the occurrence that a
reminder is scheduled for can be delivered. Where nothing is scheduled that waits for a retry or is
being executed, every run keeps this, and no occurrence is sent twice.
-/

namespace AiBuddy.Reminders

open Program Redis

/-- What a call is about: the time that `recover` has read, or the member of the occurrence that
`tick` is executing and how far it has come. -/
inductive Holding where
  | free
  | recovering (now : Instant)
  | held (member : String)
  | checked (member : String)
  | live (member : String) (id : ReminderId) (occurrenceAt : Instant)
  | sent (member : String) (id : ReminderId) (occurrenceAt : Instant)

namespace Holding

def member? : Holding → Option String
  | .free | .recovering _ => none
  | .held member | .checked member | .live member .. | .sent member .. => some member

def unrecorded? : Holding → Option String
  | .sent member .. => some member
  | _ => none

end Holding

def Owned (s : State) (member : String) (id : ReminderId) (occurrenceAt : Instant) : Prop :=
  ∃ reminder, Names s member occurrenceAt reminder ∧ reminder.id = id ∧
    reminder.deliveryStatus = .triggering ∧ reminder.scheduledOccurrenceId = some member

def State.sentCount (s : State) (member : String) : Nat :=
  s.sent.countP fun event => event.eventId = member

def Holding.Phase (s : State) : Holding → Prop
  | .free | .held _ => True
  | .recovering now => now ≤ s.clock
  | .checked member => ∀ occurrenceAt reminder, Names s member occurrenceAt reminder →
      reminder.deliveryStatus.claimable = true → reminder.scheduledOccurrenceId = some member
  | .live member id occurrenceAt => Owned s member id occurrenceAt ∧ s.sentCount member = 0
  | .sent member id occurrenceAt => Owned s member id occurrenceAt

def State.places (s : State) (member : String) : Nat :=
  (if member ∈ s.schedule then 1 else 0) + (if member ∈ s.retry then 1 else 0)

def holders (holdings : List Holding) (member : String) : Nat :=
  holdings.countP fun holding => holding.member? = some member

def Before (member other : String) : Prop :=
  ∀ at_ at', (parseMember member).map Prod.snd = some at_ →
    (parseMember other).map Prod.snd = some at' → at_ < at'

def Past (s : State) (member : String) : Prop :=
  ∀ occurrenceAt reminder, Names s member occurrenceAt reminder →
    reminder.deliveryStatus.claimable = true →
    ∃ current, reminder.scheduledOccurrenceId = some current ∧ Before member current

structure Orderly (holdings : List Holding) (s : State) : Prop where
  timely : Timely s
  named : Named s
  alone : ∀ member, s.places member + holders holdings member ≤ 1
  claimed : ∀ member, 0 < holders holdings member → member ∈ s.processing
  phases : ∀ holding ∈ holdings, holding.Phase s
  once : ∀ member, s.sentCount member ≤ 1
  recorded : ∀ member, s.sentCount member = 1 →
    Past s member ∨ ∃ holding ∈ holdings, holding.unrecorded? = some member

section Names

variable {s s' : State} {member : String} {at_ at' : Instant} {reminder reminder' : Reminder}

theorem Names.unique (h : Names s member at_ reminder) (h' : Names s member at' reminder') :
    at_ = at' ∧ reminder = reminder' := by
  obtain ⟨reminderId, hparse, hfind⟩ := h
  obtain ⟨reminderId', hparse', hfind'⟩ := h'
  rw [hparse] at hparse'
  obtain ⟨rfl, rfl⟩ := Prod.mk.inj (Option.some.inj hparse')
  rw [hfind] at hfind'
  exact ⟨rfl, Option.some.inj hfind'⟩

theorem Names.mem (h : Names s member at_ reminder) : reminder ∈ s.reminders := by
  obtain ⟨reminderId, -, hfind⟩ := h
  exact (Keyed.find?_eq_some hfind).1

theorem Names.time (h : Names s member at_ reminder) :
    (parseMember member).map Prod.snd = some at_ := by
  obtain ⟨reminderId, hparse, -⟩ := h
  rw [hparse]
  rfl

theorem names_congr (h : s'.reminders = s.reminders) :
    Names s' member at_ reminder ↔ Names s member at_ reminder := by
  simp only [Names, State.find?, h]

theorem names_update {reminderId : String} {change : Reminder → Reminder}
    {hid : ∀ reminder, (change reminder).key = reminder.key} :
    Names (s.update reminderId change hid) member at_ reminder' ↔
      ∃ reminder, Names s member at_ reminder ∧
        reminder' = if reminder.key = idFilter reminderId then change reminder else reminder := by
  have hfind : ∀ text, (s.update reminderId change hid).find? text = (s.find? text).map
      fun reminder => if reminder.key = idFilter reminderId ∧ (fun _ => true) reminder = true then
        change reminder else reminder := fun text => Keyed.find?_modify hid s.reminders
  simp only [and_true] at hfind
  constructor
  · rintro ⟨text, hparse, hfound⟩
    rw [hfind, Option.map_eq_some_iff] at hfound
    obtain ⟨reminder, hreminder, rfl⟩ := hfound
    exact ⟨reminder, ⟨text, hparse, hreminder⟩, rfl⟩
  · rintro ⟨reminder, ⟨text, hparse, hreminder⟩, rfl⟩
    refine ⟨text, hparse, ?_⟩
    rw [hfind, hreminder]
    rfl

theorem before_self (h : (parseMember member).map Prod.snd = some at_) : ¬ Before member member :=
  fun hbefore => Int.lt_irrefl at_ (hbefore at_ at_ h h)

end Names

section Orderly

variable {held held' : Holding} {others holdings holdings' : List Holding} {s s' : State}
  {member other : String} {id : ReminderId} {at_ : Instant}

theorem places_le (hschedule : member ∈ s'.schedule → member ∈ s.schedule)
    (hretry : member ∈ s'.retry → member ∈ s.retry) : s'.places member ≤ s.places member := by
  have hone : (if member ∈ s'.schedule then 1 else 0) ≤ if member ∈ s.schedule then 1 else 0 := by
    split
    · next hin => rw [if_pos (hschedule hin)]
    · exact Nat.zero_le _
  have htwo : (if member ∈ s'.retry then 1 else 0) ≤ if member ∈ s.retry then 1 else 0 := by
    split
    · next hin => rw [if_pos (hretry hin)]
    · exact Nat.zero_le _
  exact Nat.add_le_add hone htwo

theorem places_eq_zero : s.places member = 0 ↔ member ∉ s.schedule ∧ member ∉ s.retry := by
  rw [State.places, Nat.add_eq_zero_iff]
  simp only [ite_eq_right_iff, Nat.one_ne_zero, imp_false]

theorem holders_cons :
    holders (held :: others) member =
      holders others member + if held.member? = some member then 1 else 0 := by
  rw [holders, List.countP_cons]
  simp only [decide_eq_true_eq]
  rfl

theorem holders_pos : 0 < holders holdings member ↔
    ∃ held ∈ holdings, held.member? = some member := by
  rw [holders, List.countP_pos_iff]
  simp only [decide_eq_true_eq]

theorem Orderly.perm (hperm : holdings.Perm holdings') (h : Orderly holdings s) :
    Orderly holdings' s := by
  have hholders : ∀ member, holders holdings' member = holders holdings member :=
    fun member => (hperm.countP_eq _).symm
  have hmem : ∀ held, held ∈ holdings' ↔ held ∈ holdings := fun held => hperm.mem_iff.symm
  refine ⟨h.timely, h.named, ?_, ?_, ?_, h.once, ?_⟩
  · intro member
    rw [hholders]
    exact h.alone member
  · intro member
    rw [hholders]
    exact h.claimed member
  · intro held hheld
    exact h.phases held ((hmem held).mp hheld)
  · intro member hcount
    simp only [hmem]
    exact h.recorded member hcount

theorem Orderly.places_eq (h : Orderly (held :: others) s) (hmember : held.member? = some member) :
    s.places member = 0 ∧ holders others member = 0 := by
  have halone := h.alone member
  rw [holders_cons, if_pos hmember] at halone
  omega

theorem Orderly.sole (h : Orderly (held :: others) s) (hmember : held.member? = some member) :
    ∀ holding ∈ others, holding.member? ≠ some member := by
  intro holding hholding hsame
  have hpos := holders_pos.mpr ⟨holding, hholding, hsame⟩
  rw [(h.places_eq hmember).2] at hpos
  exact Nat.lt_irrefl 0 hpos

theorem owned_congr (h : s'.reminders = s.reminders) :
    Owned s' member id at_ ↔ Owned s member id at_ := by
  simp only [Owned, names_congr h]

theorem past_congr (h : s'.reminders = s.reminders) : Past s' member ↔ Past s member := by
  simp only [Past, names_congr h]

theorem sentCount_congr (h : s'.sent = s.sent) : s'.sentCount member = s.sentCount member := by
  rw [State.sentCount, State.sentCount, h]

theorem phase_congr (hreminders : s'.reminders = s.reminders) (hsent : s'.sent = s.sent)
    (hclock : s.clock ≤ s'.clock) (h : held.Phase s) : held.Phase s' := by
  cases held with
  | free => trivial
  | held => trivial
  | recovering now => exact Int.le_trans h hclock
  | checked member =>
    intro occurrenceAt reminder hnames
    exact h occurrenceAt reminder ((names_congr hreminders).mp hnames)
  | live member id at_ =>
    refine ⟨(owned_congr hreminders).mpr h.1, ?_⟩
    rw [sentCount_congr hsent]
    exact h.2
  | sent member id at_ => exact (owned_congr hreminders).mpr h

theorem Orderly.moved (h : Orderly (held :: others) s) (hreminders : s'.reminders = s.reminders)
    (hsent : s'.sent = s.sent) (hclock : s.clock ≤ s'.clock) (htimely : Timely s')
    (hphase : held'.Phase s')
    (hunrecorded : ∀ member, held.unrecorded? = some member → held'.unrecorded? = some member)
    (halone : ∀ member, s'.places member + holders (held' :: others) member ≤ 1)
    (hclaimed : ∀ member, 0 < holders (held' :: others) member → member ∈ s'.processing) :
    Orderly (held' :: others) s' := by
  refine ⟨htimely, ?_, halone, hclaimed, ?_, ?_, ?_⟩
  · intro reminder hmem
    rw [hreminders] at hmem
    exact h.named reminder hmem
  · intro holding hholding
    rcases List.mem_cons.mp hholding with rfl | hholding
    · exact hphase
    · exact phase_congr hreminders hsent hclock (h.phases holding (List.mem_cons_of_mem _ hholding))
  · intro member
    rw [sentCount_congr hsent]
    exact h.once member
  · intro member
    rw [sentCount_congr hsent, past_congr hreminders]
    intro hone
    refine (h.recorded member hone).imp_right ?_
    rintro ⟨holding, hholding, hmember⟩
    rcases List.mem_cons.mp hholding with rfl | hholding
    · exact ⟨held', List.mem_cons_self, hunrecorded _ hmember⟩
    · exact ⟨holding, List.mem_cons_of_mem _ hholding, hmember⟩

theorem holders_congr (h : held'.member? = held.member?) :
    holders (held' :: others) member = holders (held :: others) member := by
  rw [holders_cons, holders_cons, h]

theorem Orderly.learn (h : Orderly (held :: others) s) (hreminders : s'.reminders = s.reminders)
    (hsent : s'.sent = s.sent) (hclock : s.clock ≤ s'.clock) (htimely : Timely s')
    (hschedule : s'.schedule = s.schedule) (hretry : s'.retry = s.retry)
    (hprocessing : s'.processing = s.processing) (hmember : held'.member? = held.member?)
    (hphase : held'.Phase s')
    (hunrecorded : ∀ member, held.unrecorded? = some member → held'.unrecorded? = some member) :
    Orderly (held' :: others) s' := by
  refine h.moved hreminders hsent hclock htimely hphase hunrecorded ?_ ?_
  · intro member
    rw [holders_congr hmember, State.places, hschedule, hretry]
    exact h.alone member
  · intro member
    rw [holders_congr hmember, hprocessing]
    exact h.claimed member

theorem Orderly.claim {key : ZSetKey} {claimUntil : Int} (h : Orderly (.free :: others) s)
    (hmem : member ∈ s.zset key) (htimely : Timely (s.claimed key member claimUntil)) :
    Orderly (.held member :: others) (s.claimed key member claimUntil) := by
  have hprocessing : (s.claimed key member claimUntil).processing =
      s.processing.add member claimUntil := by cases key <;> rfl
  have hplaces : ∀ other, (s.claimed key member claimUntil).places other +
      (if member = other then 1 else 0) = s.places other := by
    intro other
    have hin : member ∈ s.zset key := hmem
    cases key <;> by_cases hsame : member = other <;> by_cases hs : other ∈ s.schedule <;>
      by_cases hr : other ∈ s.retry <;>
      simp_all [State.places, State.claimed, State.zset, eq_comm]
  have hfree : ∀ other, holders (Holding.free :: others) other = holders others other :=
    fun other => holders_cons
  have hheld : ∀ other, holders (Holding.held member :: others) other =
      holders others other + if member = other then 1 else 0 := fun other => by
    rw [holders_cons]
    simp only [Holding.member?, Option.some.injEq]
  refine h.moved ?_ ?_ ?_ htimely trivial nofun ?_ ?_
  · cases key <;> rfl
  · cases key <;> rfl
  · cases key <;> exact Int.le_refl _
  · intro other
    have halone := h.alone other
    have hplace := hplaces other
    rw [hfree] at halone
    rw [hheld]
    omega
  · intro other hpos
    rw [hprocessing, SortedSet.mem_add]
    by_cases hsame : other = member
    · exact .inl hsame
    · rw [hheld, if_neg (Ne.symm hsame), Nat.add_zero, ← hfree] at hpos
      exact .inr (h.claimed other hpos)

theorem Orderly.schedule {score : Int} (h : Orderly (held :: others) s) (hretry : other ∉ s.retry)
    (hprocessing : other ∉ s.processing) (htimely : Timely (s.scheduled other score))
    (hphase : held.Phase (s.scheduled other score)) :
    Orderly (held :: others) (s.scheduled other score) := by
  refine h.moved rfl rfl (Int.le_refl _) htimely hphase (fun _ => id) ?_ h.claimed
  intro member
  have halone := h.alone member
  by_cases hsame : member = other
  · subst hsame
    have hnone : ¬ 0 < holders (held :: others) member :=
      fun hpos => hprocessing (h.claimed member hpos)
    have hplaces : (s.scheduled member score).places member = 1 := by
      simp [State.places, State.scheduled, hretry]
    omega
  · have hplaces : (s.scheduled other score).places member ≤ s.places member :=
      places_le (fun hin => (SortedSet.mem_add.mp hin).resolve_left hsame) id
    omega

theorem Orderly.putDown (h : Orderly (.held member :: others) s) (s' : State)
    (hreminders : s'.reminders = s.reminders) (hsent : s'.sent = s.sent)
    (hclock : s.clock ≤ s'.clock) (htimely : Timely s')
    (hprocessing : s'.processing = s.processing.remove member)
    (hplaces : ∀ other, other ≠ member → s'.places other ≤ s.places other)
    (hself : s.places member = 0 → s'.places member ≤ 1) : Orderly (.free :: others) s' := by
  have hfree : ∀ other, holders (Holding.free :: others) other = holders others other :=
    fun other => holders_cons
  have hmember : (Holding.held member).member? = some member := rfl
  obtain ⟨hzero, hothers⟩ := h.places_eq hmember
  refine h.moved hreminders hsent hclock htimely trivial nofun ?_ ?_
  · intro other
    rw [hfree]
    by_cases hsame : other = member
    · subst hsame
      have hle := hself hzero
      omega
    · have halone := h.alone other
      have hle := hplaces other hsame
      rw [holders_cons] at halone
      omega
  · intro other hpos
    rw [hfree] at hpos
    rw [hprocessing, SortedSet.mem_remove]
    constructor
    · rintro rfl
      rw [hothers] at hpos
      exact absurd hpos (Nat.lt_irrefl 0)
    · refine h.claimed other ?_
      rw [holders_cons]
      exact Nat.lt_add_right _ hpos

theorem Orderly.complete (h : Orderly (.held member :: others) s)
    (htimely : Timely (s.complete member)) : Orderly (.free :: others) (s.complete member) := by
  refine h.putDown (s.complete member) rfl rfl (Int.le_refl _) htimely rfl ?_ ?_
  · intro other hne
    exact places_le (fun hin => (SortedSet.mem_remove.mp hin).2)
      fun hin => (SortedSet.mem_remove.mp hin).2
  · intro hzero
    have hout : (s.complete member).places member = 0 :=
      places_eq_zero.mpr ⟨fun hin => (SortedSet.mem_remove.mp hin).1 rfl,
        fun hin => (SortedSet.mem_remove.mp hin).1 rfl⟩
    omega

theorem Orderly.retryAt {score : Int} (h : Orderly (.held member :: others) s)
    (htimely : Timely (s.retryAt member score)) :
    Orderly (.free :: others) (s.retryAt member score) := by
  refine h.putDown (s.retryAt member score) rfl rfl (Int.le_refl _) htimely rfl ?_ ?_
  · intro other hne
    exact places_le id fun hin => (SortedSet.mem_add.mp hin).resolve_left hne
  · intro hzero
    have hout : member ∉ s.schedule := (places_eq_zero.mp hzero).1
    simp [State.places, State.retryAt, hout]

/-- The document that a call updates while it executes an occurrence is scheduled for that
occurrence and no other call owns it. It stays scheduled for it or goes on to a later one. -/
theorem Orderly.updated {reminderId : String} {change : Reminder → Reminder}
    {hid : ∀ reminder, (change reminder).key = reminder.key} (h : Orderly (held :: others) s)
    (hmember : held.member? = some member) (hmember' : held'.member? = some member)
    (htime : (parseMember member).map Prod.snd = some at_)
    (hmine : ∀ reminder ∈ s.reminders, reminder.key = idFilter reminderId →
      reminder.deliveryStatus.claimable = true → reminder.scheduledOccurrenceId = some member)
    (hchange : ∀ reminder ∈ s.reminders, reminder.key = idFilter reminderId →
      (change reminder).deliveryStatus.claimable = true →
      reminder.deliveryStatus.claimable = true ∧
        ∃ current, (change reminder).scheduledOccurrenceId = some current ∧ current ≠ "" ∧
          (current = member ∨ Before member current))
    (htimely : Timely (s.update reminderId change hid))
    (hphase : held'.Phase (s.update reminderId change hid))
    (hrecorded : held.unrecorded? = some member → held'.unrecorded? = some member ∨
      Past (s.update reminderId change hid) member) :
    Orderly (held' :: others) (s.update reminderId change hid) := by
  have howned : ∀ other id at_, other ≠ member → Owned s other id at_ →
      Owned (s.update reminderId change hid) other id at_ := by
    rintro other id at_ hne ⟨reminder, hnames, hid', hstatus, hscheduled⟩
    have hkey : reminder.key ≠ idFilter reminderId := by
      intro hkey
      have hsame := hmine reminder hnames.mem hkey (by rw [hstatus]; rfl)
      rw [hscheduled] at hsame
      exact hne (Option.some.inj hsame)
    exact ⟨reminder, names_update.mpr ⟨reminder, hnames, (if_neg hkey).symm⟩, hid', hstatus,
      hscheduled⟩
  refine ⟨htimely, ?_, ?_, ?_, ?_, h.once, ?_⟩
  · intro reminder hmem hclaimable
    rcases Keyed.mem_modify hmem with hbefore | ⟨before, hbefore, hkey, -, rfl⟩
    · exact h.named reminder hbefore hclaimable
    · obtain ⟨-, current, hcurrent, hne, -⟩ := hchange before hbefore hkey hclaimable
      exact ⟨current, hcurrent, hne⟩
  · intro other
    rw [holders_congr (hmember'.trans hmember.symm)]
    exact h.alone other
  · intro other
    rw [holders_congr (hmember'.trans hmember.symm)]
    exact h.claimed other
  · intro holding hholding
    rcases List.mem_cons.mp hholding with rfl | hholding
    · exact hphase
    · have hwas := h.phases holding (List.mem_cons_of_mem _ hholding)
      have hsole := h.sole hmember holding hholding
      cases holding with
      | free => trivial
      | held => trivial
      | recovering now => exact hwas
      | checked other =>
        intro occurrenceAt reminder' hnames hclaimable
        obtain ⟨reminder, hdoc, rfl⟩ := names_update.mp hnames
        split at hclaimable
        · next hkey =>
          obtain ⟨hclaimable, -⟩ := hchange reminder hdoc.mem hkey hclaimable
          have hother := hwas occurrenceAt reminder hdoc hclaimable
          rw [hmine reminder hdoc.mem hkey hclaimable] at hother
          exact absurd hother.symm hsole
        · next hkey =>
          rw [if_neg hkey]
          exact hwas occurrenceAt reminder hdoc hclaimable
      | live other id at_ =>
        exact ⟨howned other id at_ (fun hsame => hsole (congrArg some hsame)) hwas.1, hwas.2⟩
      | sent other id at_ =>
        exact howned other id at_ (fun hsame => hsole (congrArg some hsame)) hwas
  · intro other hone
    rcases h.recorded other hone with hpast | ⟨holding, hholding, hother⟩
    · left
      intro occurrenceAt reminder' hnames hclaimable
      obtain ⟨reminder, hdoc, rfl⟩ := names_update.mp hnames
      by_cases hkey : reminder.key = idFilter reminderId
      · rw [if_pos hkey] at hclaimable ⊢
        obtain ⟨hwas, current, hcurrent, -, hwhich⟩ := hchange reminder hdoc.mem hkey hclaimable
        obtain ⟨last, hlast, hbefore⟩ := hpast occurrenceAt reminder hdoc hwas
        rw [hmine reminder hdoc.mem hkey hwas] at hlast
        obtain rfl := Option.some.inj hlast
        refine ⟨current, hcurrent, ?_⟩
        rcases hwhich with rfl | hlater
        · exact hbefore
        · exact fun first last hfirst hlast =>
            Int.lt_trans (hbefore first at_ hfirst htime) (hlater at_ last htime hlast)
      · rw [if_neg hkey] at hclaimable ⊢
        exact hpast occurrenceAt reminder hdoc hclaimable
    · rcases List.mem_cons.mp hholding with rfl | hholding
      · have hsame : some other = some member := by
          rw [← hmember]
          cases holding <;> first | exact hother.symm | cases hother
        obtain rfl := Option.some.inj hsame
        exact (hrecorded hother).symm.imp_right fun hheld' => ⟨held', List.mem_cons_self, hheld'⟩
      · exact .inr ⟨holding, List.mem_cons_of_mem _ hholding, hother⟩

theorem sentCount_cons {event : TriggerEvent} :
    ({ s with sent := event :: s.sent } : State).sentCount member =
      s.sentCount member + if event.eventId = member then 1 else 0 := by
  rw [State.sentCount, List.countP_cons]
  simp only [decide_eq_true_eq]
  rfl

theorem Orderly.dispatched {event : TriggerEvent} (h : Orderly (.live member id at_ :: others) s)
    (hevent : event.eventId = member) (htimely : Timely { s with sent := event :: s.sent }) :
    Orderly (.sent member id at_ :: others) { s with sent := event :: s.sent } := by
  obtain ⟨howned, hzero⟩ := h.phases _ List.mem_cons_self
  have hself : ({ s with sent := event :: s.sent } : State).sentCount member = 1 := by
    rw [sentCount_cons, if_pos hevent, hzero]
  have hothers : ∀ other, other ≠ member →
      ({ s with sent := event :: s.sent } : State).sentCount other = s.sentCount other := by
    intro other hne
    rw [sentCount_cons, if_neg (fun hsame => hne (hsame.symm.trans hevent)), Nat.add_zero]
  refine ⟨htimely, h.named, h.alone, h.claimed, ?_, ?_, ?_⟩
  · intro holding hholding
    rcases List.mem_cons.mp hholding with rfl | hholding
    · exact howned
    · have hwas := h.phases holding (List.mem_cons_of_mem _ hholding)
      have hmember : (Holding.live member id at_).member? = some member := rfl
      have hsole := h.sole hmember holding hholding
      cases holding with
      | live other id' at' =>
        refine ⟨hwas.1, ?_⟩
        rw [hothers other fun hsame => hsole (congrArg some hsame)]
        exact hwas.2
      | _ => exact hwas
  · intro other
    by_cases hsame : other = member
    · subst hsame
      exact Nat.le_of_eq hself
    · rw [hothers other hsame]
      exact h.once other
  · intro other hone
    by_cases hsame : other = member
    · subst hsame
      exact .inr ⟨_, List.mem_cons_self, rfl⟩
    · rw [hothers other hsame] at hone
      refine (h.recorded other hone).imp_right ?_
      rintro ⟨holding, hholding, hother⟩
      rcases List.mem_cons.mp hholding with rfl | hholding
      · cases hother
      · exact ⟨holding, List.mem_cons_of_mem _ hholding, hother⟩

end Orderly

end AiBuddy.Reminders
