import AiBuddy.Reminders.Proofs.Series

/-!
# Changes by the user during an execution

The three outcome writes of an execution look at the id of the reminder alone. A change by the user
that lands before one of them is overwritten, unless the write happens to say the same.
-/

namespace AiBuddy.Reminders

open Program Redis

inductive UserUpdate where
  | cancel
  | reschedule (dateKey : String) (next : Instant) (occurrence : String)
  deriving DecidableEq

namespace UserUpdate

def apply : UserUpdate → Reminder → Reminder
  | .cancel, reminder => { reminder with deliveryStatus := .cancelled }
  | .reschedule dateKey next occurrence, reminder =>
    { reminder with
      dateKey
      nextTriggerAtUtc := some next
      scheduledOccurrenceId := some occurrence
      deliveryStatus := .scheduled }

theorem apply_id (update : UserUpdate) (reminder : Reminder) :
    (update.apply reminder).id = reminder.id := by
  cases update <;> rfl

def IsNew (member : String) : UserUpdate → Prop
  | .cancel => True
  | .reschedule _ _ occurrence => occurrence ≠ member ∧ occurrence ≠ ""

def Stands : UserUpdate → Reminder → Prop
  | .cancel, reminder => reminder.deliveryStatus = .cancelled
  | .reschedule _ _ occurrence, reminder =>
    reminder.deliveryStatus = .scheduled ∧ reminder.scheduledOccurrenceId = some occurrence

end UserUpdate

def State.changed (s : State) (id : ReminderId) (change : Reminder → Reminder)
    (hid : ∀ reminder, (change reminder).id = reminder.id) : State :=
  s.update id.str change fun reminder => congrArg ReminderId.str (hid reminder)

def interfered (config : Config) (outcome : TriggerEvent → DispatchOutcome) (update : UserUpdate)
    (id : ReminderId) (n : Nat) (member : String) (now : Instant) (s : State) : State :=
  (disturbed (answer outcome) (fun s => s.changed id update.apply update.apply_id) n
    (execute config member now) s).2

def Reminder.reply (outcome : TriggerEvent → DispatchOutcome) (claimed : Reminder)
    (type : DeliveryType) (reminderId member : String) (occurrenceAt now : Instant) :
    DispatchOutcome :=
  outcome (claimed.event type reminderId member occurrenceAt now)

/-- How many commands of `deliver` come before the outcome write. -/
def deliverWriteAt (config : Config) (outcome : TriggerEvent → DispatchOutcome)
    (claimed : Reminder) (reminderId member : String) (occurrenceAt now : Instant) : Nat :=
  match claimed.deliveryType with
  | none => 0
  | some type =>
    match claimed.reply outcome type reminderId member occurrenceAt now with
    | .sent => (if (claimed.nextTrigger config occurrenceAt).isSome then 1 else 0) + 1
    | _ => 1

def outcomeWriteAt (config : Config) (outcome : TriggerEvent → DispatchOutcome)
    (reminder : Reminder) (reminderId member : String) (occurrenceAt now : Instant) : Nat :=
  if isLate config now occurrenceAt then 1
  else deliverWriteAt config outcome reminder reminderId member occurrenceAt now + 2

def GoesOnTo (config : Config) (outcome : TriggerEvent → DispatchOutcome) (reminder : Reminder)
    (reminderId member : String) (occurrenceAt now : Instant) (occurrence : String) : Prop :=
  ∃ type next, reminder.deliveryType = some type ∧
    reminder.reply outcome type reminderId member occurrenceAt now = .sent ∧
    reminder.nextTrigger config occurrenceAt = some next ∧
    occurrenceId reminder.id.str next = occurrence

inductive Respected (config : Config) (outcome : TriggerEvent → DispatchOutcome)
    (update : UserUpdate) (reminder : Reminder) (reminderId member : String)
    (occurrenceAt now : Instant) : Nat → Prop where
  | beforeRead : Respected config outcome update reminder reminderId member occurrenceAt now 0
  | skipped {n : Nat} (h : reminder.skips member = true) :
    Respected config outcome update reminder reminderId member occurrenceAt now n
  | afterOutcome {n : Nat}
    (h : outcomeWriteAt config outcome reminder reminderId member occurrenceAt now < n) :
    Respected config outcome update reminder reminderId member occurrenceAt now n
  | cancelledBeforeClaim (hlate : isLate config now occurrenceAt = false)
    (hupdate : update = .cancel) :
    Respected config outcome update reminder reminderId member occurrenceAt now 1
  | refused {n : Nat} (hlate : isLate config now occurrenceAt = false)
    (h : reminder.claimable member = false) :
    Respected config outcome update reminder reminderId member occurrenceAt now (n + 2)
  | readAnew {dateKey occurrence : String} {next : Instant}
    (hlate : isLate config now occurrenceAt = false)
    (hupdate : update = .reschedule dateKey next occurrence)
    (h : GoesOnTo config outcome (update.apply reminder) reminderId member occurrenceAt now
      occurrence) :
    Respected config outcome update reminder reminderId member occurrenceAt now 1
  | sameOccurrence {n : Nat} {dateKey occurrence : String} {next : Instant}
    (hlate : isLate config now occurrenceAt = false)
    (hupdate : update = .reschedule dateKey next occurrence)
    (h : GoesOnTo config outcome reminder reminderId member occurrenceAt now occurrence) :
    Respected config outcome update reminder reminderId member occurrenceAt now (n + 2)

variable {writeAt : Nat} {write : Reminder → Reminder}

section Interference

variable {config : Config} {outcome : TriggerEvent → DispatchOutcome} {update : UserUpdate}
  {change : Reminder → Reminder} {hchange : ∀ reminder, (change reminder).id = reminder.id}
  {s : State} {member text : String} {at_ now : Instant} {doc claimed reminder : Reminder}
  {id : ReminderId} {n : Nat}

/-- What `_handle_failure` writes. -/
def failureWrite (config : Config) (claimed : Reminder) (now : Instant) (retryable : Bool) :
    Reminder → Reminder :=
  if claimed.retries config retryable then
    Reminder.retrying (claimed.retryCount + 1)
      (now + retryDelaySeconds (claimed.retryCount + 1) * second) now
  else Reminder.failed now

def outcomeWrite (config : Config) (outcome : TriggerEvent → DispatchOutcome) (claimed : Reminder)
    (reminderId member : String) (occurrenceAt now : Instant) : Reminder → Reminder :=
  match claimed.deliveryType with
  | none => Reminder.failed now
  | some type =>
    match claimed.reply outcome type reminderId member occurrenceAt now with
    | .sent => Reminder.delivered (claimed.delivery config member occurrenceAt now)
    | .deliveryError retryable => failureWrite config claimed now retryable
    | .exception => failureWrite config claimed now true

def landed (change : Reminder → Reminder) (writeAt n : Nat) (write : Reminder → Reminder)
    (doc : Reminder) : Reminder :=
  if n ≤ writeAt then write (change doc) else change (write doc)

abbrev afterChange (outcome : TriggerEvent → DispatchOutcome) (id : ReminderId)
    (change : Reminder → Reminder) (hchange : ∀ reminder, (change reminder).id = reminder.id)
    (n : Nat) (prog : Working Unit) (s : State) : State :=
  (disturbed (answer outcome) (fun s => s.changed id change hchange) n prog s).2

theorem Names.changed (h : Names s member at_ doc) (hid : doc.id = id) :
    Names (s.changed id change hchange) member at_ (change doc) :=
  h.mem_update change _ (hid ▸ doc.key_eq)

theorem Names.landed {s' : State} (h : Names s member at_ doc)
    (hchange : ∀ reminder, (change reminder).id = reminder.id) (hid : doc.id = id)
    (htext : idFilter text = id.str) (write : Reminder → Reminder)
    (hkeeps : ∀ reminder, (write reminder).id = reminder.id) (writeAt : Nat)
    (hbefore : n ≤ writeAt → s'.reminders = ((s.changed id change hchange).update text write
      fun reminder => congrArg ReminderId.str (hkeeps reminder)).reminders)
    (hafter : writeAt < n → s'.reminders = ((s.update text write fun reminder =>
      congrArg ReminderId.str (hkeeps reminder)).changed id change hchange).reminders) :
    Names s' member at_ (landed change writeAt n write doc) := by
  have hkey : ∀ reminder : Reminder, reminder.id = id → reminder.key = idFilter text := by
    rintro reminder rfl
    exact htext.symm
  unfold Reminders.landed
  split
  · next hle =>
    rw [names_congr (hbefore hle)]
    exact (h.changed hid).mem_update write _ (hkey _ ((hchange doc).trans hid))
  · next hlt =>
    rw [names_congr (hafter (Nat.lt_of_not_le hlt))]
    exact (h.mem_update write _ (hkey doc hid)).changed ((hkeeps doc).trans hid)

theorem disturbed_complete :
    (disturbed (answer outcome) (fun s => s.changed id change hchange) n
      (issue (.complete member)) s).2.reminders =
        (s.changed id change hchange).reminders := by
  cases n with
  | zero => rfl
  | succ n =>
    rw [disturbed_issue]
    rfl

theorem handleSuccess_landed (h : Names s member at_ doc) (hid : doc.id = claimed.id) :
    Names (afterChange outcome claimed.id change hchange n
      (handleSuccess config claimed member at_ now) s)
      member at_ (landed change (if (claimed.nextTrigger config at_).isSome then 1 else 0) n
        (Reminder.delivered (claimed.delivery config member at_ now)) doc) := by
  refine h.landed hchange hid claimed.id.canonical (Reminder.delivered _) (fun _ => rfl) _ ?_ ?_
  · intro hle
    unfold handleSuccess
    cases hnext : claimed.nextTrigger config at_ with
    | none =>
      rw [hnext] at hle
      obtain rfl := Nat.le_zero.mp hle
      rfl
    | some next =>
      rw [hnext] at hle
      obtain rfl | rfl := Nat.le_one_iff_eq_zero_or_eq_one.mp hle <;> rfl
  · intro hlt
    unfold handleSuccess
    cases hnext : claimed.nextTrigger config at_ with
    | none =>
      rw [hnext] at hlt
      obtain ⟨further, rfl⟩ : ∃ further, n = further + 1 := Nat.exists_eq_add_of_le' hlt
      dsimp only [afterChange]
      rw [disturbed_issue_bind, disturbed_complete]
      rfl
    | some next =>
      rw [hnext] at hlt
      obtain ⟨further, rfl⟩ : ∃ further, n = further + 2 := Nat.exists_eq_add_of_le' hlt
      dsimp only [afterChange]
      rw [disturbed_issue_bind, disturbed_issue_bind, disturbed_complete]
      rfl

theorem handleFailure_landed {retryable : Bool} (h : Names s member at_ doc)
    (hid : doc.id = claimed.id) :
    Names (afterChange outcome claimed.id change hchange n
        (handleFailure config claimed member now retryable) s)
      member at_ (landed change 0 n (failureWrite config claimed now retryable) doc) := by
  unfold handleFailure failureWrite
  dsimp only
  split
  · refine h.landed hchange hid claimed.id.canonical (Reminder.retrying _ _ _)
      (fun _ => rfl) _ ?_ ?_
    · intro hle
      obtain rfl := Nat.le_zero.mp hle
      rfl
    · intro hlt
      obtain ⟨further, rfl⟩ : ∃ further, n = further + 1 := Nat.exists_eq_add_of_le' hlt
      rw [afterChange, disturbed_issue_bind]
      cases further with
      | zero => rfl
      | succ further =>
        rw [disturbed_issue]
        rfl
  · refine h.landed hchange hid claimed.id.canonical (Reminder.failed _) (fun _ => rfl) _ ?_ ?_
    · intro hle
      obtain rfl := Nat.le_zero.mp hle
      rfl
    · intro hlt
      obtain ⟨further, rfl⟩ : ∃ further, n = further + 1 := Nat.exists_eq_add_of_le' hlt
      rw [afterChange, disturbed_issue_bind]
      cases further with
      | zero => rfl
      | succ further =>
        rw [disturbed_issue_bind, disturbed_complete]
        rfl

theorem landed_zero {writeAt' : Nat} :
    landed change writeAt 0 write doc = landed change writeAt' 0 write doc := by
  rw [landed, landed, if_pos (Nat.zero_le _), if_pos (Nat.zero_le _)]

theorem landed_succ :
    landed change (writeAt + 1) (n + 1) write doc = landed change writeAt n write doc := by
  simp only [landed, Nat.add_le_add_iff_right]

theorem dispatch_landed {event : TriggerEvent} {next : DispatchOutcome → Working Unit}
    (hnext : ∀ n, Names (afterChange outcome id change hchange n (next (outcome event))
      (answer outcome (.dispatch event) s).2) member at_ (landed change writeAt n write doc)) :
    Names (afterChange outcome id change hchange n (issue (.dispatch event) >>= next) s) member at_
      (landed change (writeAt + 1) n write doc) := by
  have hreply : ∀ s, (answer outcome (.dispatch event) s).1 = outcome event := by
    intro s
    simp only [answer]
    split
    · next hsent => exact hsent.symm
    · rfl
  cases n with
  | zero =>
    rw [landed_zero, afterChange, disturbed_zero, eval_issue_bind, hreply]
    have hfirst := hnext 0
    have hcommute : (answer outcome (.dispatch event)
        (s.changed id change hchange)).2 =
          (answer outcome (.dispatch event) s).2.changed id change hchange := by
      simp only [answer]
      cases outcome event <;> rfl
    rw [hcommute]
    exact hfirst
  | succ n =>
    rw [landed_succ, afterChange, disturbed_issue_bind, hreply]
    exact hnext n

theorem dispatch_names {event : TriggerEvent} (h : Names s member at_ doc) :
    Names (answer outcome (.dispatch event) s).2 member at_ doc := by
  simp only [answer]
  cases outcome event <;> exact h

theorem deliver_landed (h : Names s member at_ doc) (hid : doc.id = claimed.id)
    (htext : idFilter text = claimed.id.str) :
    Names (afterChange outcome claimed.id change hchange n
      (deliver config claimed text member at_ now) s)
      member at_ (landed change (deliverWriteAt config outcome claimed text member at_ now) n
        (outcomeWrite config outcome claimed text member at_ now) doc) := by
  unfold deliver deliverWriteAt outcomeWrite
  cases claimed.deliveryType with
  | none =>
    refine h.landed hchange hid htext (Reminder.failed _) (fun _ => rfl) _ ?_ ?_
    · intro hle
      obtain rfl := Nat.le_zero.mp hle
      rfl
    · intro hlt
      obtain ⟨further, rfl⟩ : ∃ further, n = further + 1 := Nat.exists_eq_add_of_le' hlt
      dsimp only [afterChange]
      rw [disturbed_issue_bind]
      cases further with
      | zero => rfl
      | succ further =>
        rw [disturbed_issue_bind, disturbed_complete]
        rfl
  | some type =>
    dsimp only
    cases hreply : claimed.reply outcome type text member at_ now with
    | sent =>
      refine dispatch_landed fun n => ?_
      rw [show outcome (claimed.event type text member at_ now) = .sent from hreply]
      exact handleSuccess_landed (dispatch_names h) hid
    | deliveryError retryable =>
      refine dispatch_landed fun n => ?_
      rw [show outcome (claimed.event type text member at_ now) = .deliveryError retryable from
        hreply]
      exact handleFailure_landed (dispatch_names h) hid
    | exception =>
      refine dispatch_landed fun n => ?_
      rw [show outcome (claimed.event type text member at_ now) = .exception from hreply]
      exact handleFailure_landed (dispatch_names h) hid

theorem changed_self (s : State) (id : ReminderId) : s.changed id (fun reminder => reminder)
    (fun _ => rfl) = s := by
  obtain ⟨clock, schedule, retry, processing, deadLetter, reminders, sent, hnodup⟩ := s
  simp only [State.changed, State.update]
  congr 1
  refine (List.map_congr_left fun reminder _ => ?_).trans (List.map_id reminders)
  rw [ite_self]
  rfl

theorem deliver_names (h : Names s member at_ doc) (hid : doc.id = claimed.id)
    (htext : idFilter text = claimed.id.str) :
    Names ((deliver config claimed text member at_ now).eval (answer outcome) s).2 member at_
      (outcomeWrite config outcome claimed text member at_ now doc) := by
  have hnone : Names (afterChange outcome claimed.id (fun reminder => reminder) (fun _ => rfl) 0
      (deliver config claimed text member at_ now) s) member at_
        (landed (fun reminder => reminder)
          (deliverWriteAt config outcome claimed text member at_ now)
          0 (outcomeWrite config outcome claimed text member at_ now) doc) :=
    deliver_landed h hid htext
  rw [afterChange, disturbed_zero, changed_self, landed, if_pos (Nat.zero_le _)] at hnone
  exact hnone

theorem stands_apply : update.Stands (update.apply doc) := by
  cases update with
  | cancel => rfl
  | reschedule dateKey next occurrence => exact ⟨rfl, rfl⟩

theorem not_stands_failed : ¬ update.Stands (doc.failed now) := by
  intro h
  cases update with
  | cancel => cases h
  | reschedule dateKey next occurrence => cases h.1

theorem not_stands_failureWrite {retryable : Bool} :
    ¬ update.Stands (failureWrite config claimed now retryable doc) := by
  unfold failureWrite
  split
  · intro h
    cases update with
    | cancel => cases h
    | reschedule dateKey next occurrence => cases h.1
  · exact not_stands_failed

theorem stands_delivered :
    update.Stands (doc.delivered (claimed.delivery config member at_ now)) ↔
      ∃ dateKey at' occurrence next, update = .reschedule dateKey at' occurrence ∧
        claimed.nextTrigger config at_ = some next ∧
        occurrenceId claimed.id.str next = occurrence := by
  unfold Reminder.delivery
  cases hnext : claimed.nextTrigger config at_ with
  | none =>
    constructor
    · intro h
      cases update with
      | cancel => cases h
      | reschedule dateKey at' occurrence => cases h.1
    · rintro ⟨_, _, _, _, -, ⟨⟩, -⟩
  | some next =>
    constructor
    · intro h
      cases update with
      | cancel => cases h
      | reschedule dateKey at' occurrence =>
        exact ⟨dateKey, at', occurrence, next, rfl, rfl, Option.some.inj h.2⟩
    · rintro ⟨dateKey, at', occurrence, next', rfl, hsame, rfl⟩
      obtain rfl := Option.some.inj hsame
      exact ⟨rfl, rfl⟩

theorem stands_outcomeWrite :
    update.Stands (outcomeWrite config outcome claimed text member at_ now doc) ↔
      ∃ dateKey at' occurrence, update = .reschedule dateKey at' occurrence ∧
        GoesOnTo config outcome claimed text member at_ now occurrence := by
  unfold outcomeWrite GoesOnTo
  cases htype : claimed.deliveryType with
  | none =>
    refine iff_of_false not_stands_failed ?_
    rintro ⟨_, _, _, -, _, _, ⟨⟩, -⟩
  | some type =>
    dsimp only
    cases hreply : claimed.reply outcome type text member at_ now with
    | sent =>
      refine stands_delivered.trans ?_
      constructor
      · rintro ⟨dateKey, at', occurrence, next, hupdate, hnext, hsame⟩
        exact ⟨dateKey, at', occurrence, hupdate, type, next, rfl, hreply, hnext, hsame⟩
      · rintro ⟨dateKey, at', occurrence, hupdate, type', next, -, -, hnext, hsame⟩
        exact ⟨dateKey, at', occurrence, next, hupdate, hnext, hsame⟩
    | deliveryError retryable =>
      refine iff_of_false not_stands_failureWrite ?_
      rintro ⟨_, _, _, -, type', _, hsome, hsent, -⟩
      rw [← Option.some.inj hsome, hreply] at hsent
      cases hsent
    | exception =>
      refine iff_of_false not_stands_failureWrite ?_
      rintro ⟨_, _, _, -, type', _, hsome, hsent, -⟩
      rw [← Option.some.inj hsome, hreply] at hsent
      cases hsent

theorem Names.find (h : Names s member at_ doc) (hparse : parseMember member = some (text, at_)) :
    s.find? text = some doc := by
  obtain ⟨text', hparse', hfind⟩ := h
  rw [hparse] at hparse'
  obtain ⟨rfl, -⟩ := Prod.mk.inj (Option.some.inj hparse')
  exact hfind

theorem answer_claimReminder_none
    (h : (s.find? text).filter (Reminder.claimable member) = none) :
    answer outcome (.claimReminder text member now) s = (none, s) := by
  simp only [answer, h]

theorem late_stands (h : Names s member at_ doc) (hparse : parseMember member = some (text, at_))
    (hskips : ¬ doc.skips member = true) (hlate : isLate config now at_ = true) :
    ∃ final, Names (afterChange outcome doc.id update.apply update.apply_id n
        (claimAndDeliver config text member at_ now) s) member at_ final ∧
      (update.Stands final ↔ Respected config outcome update doc text member at_ now (n + 1)) := by
  have htext : idFilter text = doc.id.str := (Keyed.find?_eq_some (h.find hparse)).2.symm
  have hwriteAt : outcomeWriteAt config outcome doc text member at_ now = 1 := by
    rw [outcomeWriteAt, if_pos hlate]
  refine ⟨landed update.apply 0 n (Reminder.failed now) doc, ?_, ?_⟩
  · unfold claimAndDeliver
    rw [if_pos hlate]
    refine h.landed update.apply_id rfl htext (Reminder.failed now) (fun _ => rfl) _ ?_ ?_
    · intro hle
      obtain rfl := Nat.le_zero.mp hle
      rfl
    · intro hlt
      obtain ⟨further, rfl⟩ : ∃ further, n = further + 1 := Nat.exists_eq_add_of_le' hlt
      rw [afterChange, disturbed_issue_bind, disturbed_complete]
      rfl
  · cases n with
    | zero =>
      refine iff_of_false not_stands_failed fun hrespected => ?_
      cases hrespected with
      | skipped h => exact hskips h
      | afterOutcome h =>
        rw [hwriteAt] at h
        exact Nat.lt_irrefl 1 h
      | cancelledBeforeClaim hnot => rw [hlate] at hnot; cases hnot
      | readAnew hnot => rw [hlate] at hnot; cases hnot
    | succ n =>
      refine iff_of_true stands_apply (.afterOutcome ?_)
      rw [hwriteAt]
      omega

theorem beforeClaim_stands (h : Names s member at_ doc)
    (hparse : parseMember member = some (text, at_)) (hskips : ¬ doc.skips member = true)
    (hlate : isLate config now at_ = false) :
    ∃ final, Names (afterChange outcome doc.id update.apply update.apply_id 0
        (claimAndDeliver config text member at_ now) s) member at_ final ∧
      (update.Stands final ↔ Respected config outcome update doc text member at_ now 1) := by
  have hchanged : Names (s.changed doc.id update.apply update.apply_id) member at_
      (update.apply doc) := h.changed rfl
  have htext : idFilter text = doc.id.str := (Keyed.find?_eq_some (h.find hparse)).2.symm
  have hundelivered : doc.lastDeliveredOccurrenceKey ≠ some member := by
    intro hsame
    exact hskips (by simp [Reminder.skips, hsame])
  unfold claimAndDeliver
  rw [if_neg (by simp [hlate]), afterChange, disturbed_zero, eval_issue_bind]
  cases hupdate : update with
  | cancel =>
    subst hupdate
    have hrefused : ((s.changed doc.id UserUpdate.cancel.apply UserUpdate.cancel.apply_id).find?
        text).filter (Reminder.claimable member) = none := by
      rw [hchanged.find hparse]
      simp [Option.filter, Reminder.claimable, UserUpdate.apply, DeliveryStatus.claimable]
    rw [answer_claimReminder_none hrefused]
    exact ⟨_, hchanged, iff_of_true stands_apply (.cancelledBeforeClaim hlate rfl)⟩
  | reschedule dateKey next occurrence =>
    have hclaimable : (update.apply doc).claimable member = true := by
      subst hupdate
      simp [Reminder.claimable, UserUpdate.apply, DeliveryStatus.claimable, hundelivered]
    rw [← hupdate]
    have hclaimed : ((s.changed doc.id update.apply update.apply_id).find? text).filter
        (Reminder.claimable member) = some (update.apply doc) := by
      rw [hchanged.find hparse, Option.filter_some_pos hclaimable]
    rw [answer_claimReminder hclaimed]
    have hid : (update.apply doc).id = doc.id := update.apply_id doc
    have hdoc := hchanged.mem_update (Reminder.triggering now) (fun _ => rfl)
      (htext.trans (congrArg ReminderId.str hid.symm)).symm
    have hown : idFilter text = ((update.apply doc).triggering now).id.str := by
      rw [htext, ← hid]
      rfl
    refine ⟨_, deliver_names hdoc rfl hown, ?_⟩
    · rw [stands_outcomeWrite]
      constructor
      · rintro ⟨dateKey', at', occurrence', hsame, hgoes⟩
        exact .readAnew hlate hsame hgoes
      · intro hrespected
        cases hrespected with
        | skipped h => exact absurd h hskips
        | afterOutcome h =>
          rw [outcomeWriteAt, if_neg (by simp [hlate])] at h
          omega
        | cancelledBeforeClaim _ hcancel => rw [hupdate] at hcancel; cases hcancel
        | readAnew _ hsame hgoes => exact ⟨_, _, _, hsame, hgoes⟩

theorem afterClaim_stands (h : Names s member at_ doc)
    (hparse : parseMember member = some (text, at_)) (hskips : ¬ doc.skips member = true)
    (hlate : isLate config now at_ = false) :
    ∃ final, Names (afterChange outcome doc.id update.apply update.apply_id (n + 1)
        (claimAndDeliver config text member at_ now) s) member at_ final ∧
      (update.Stands final ↔ Respected config outcome update doc text member at_ now (n + 2)) := by
  have htext : idFilter text = doc.id.str := (Keyed.find?_eq_some (h.find hparse)).2.symm
  have hwriteAt : outcomeWriteAt config outcome doc text member at_ now =
      deliverWriteAt config outcome doc text member at_ now + 2 := by
    rw [outcomeWriteAt, if_neg (by simp [hlate])]
  unfold claimAndDeliver
  rw [if_neg (by simp [hlate]), afterChange, disturbed_issue_bind]
  by_cases hclaimable : doc.claimable member = true
  · have hclaimed : (s.find? text).filter (Reminder.claimable member) = some doc := by
      rw [h.find hparse, Option.filter_some_pos hclaimable]
    rw [answer_claimReminder hclaimed]
    have hdoc := h.mem_update (Reminder.triggering now) (fun _ => rfl) htext.symm
    have hown : idFilter text = (doc.triggering now).id.str := htext
    refine ⟨_, deliver_landed hdoc rfl hown, ?_⟩
    rw [landed]
    split
    · next hle =>
      rw [stands_outcomeWrite]
      constructor
      · rintro ⟨dateKey, at', occurrence, hupdate, hgoes⟩
        exact .sameOccurrence hlate hupdate hgoes
      · intro hrespected
        cases hrespected with
        | skipped h => exact absurd h hskips
        | afterOutcome h =>
          rw [hwriteAt] at h
          omega
        | refused _ h => rw [hclaimable] at h; cases h
        | sameOccurrence _ hupdate hgoes => exact ⟨_, _, _, hupdate, hgoes⟩
    · next hlt =>
      refine iff_of_true stands_apply (.afterOutcome ?_)
      rw [hwriteAt]
      omega
  · have hrefused : (s.find? text).filter (Reminder.claimable member) = none := by
      rw [h.find hparse, Option.filter_some_eq_none.mpr hclaimable]
    rw [answer_claimReminder_none hrefused]
    refine ⟨_, (names_congr disturbed_complete).mpr (h.changed rfl), ?_⟩
    exact iff_of_true stands_apply (.refused hlate (Bool.eq_false_of_not_eq_true hclaimable))

theorem execute_stands (h : Names s member at_ doc) (hparse : parseMember member = some (text, at_))
    (hnew : update.IsNew member) :
    ∃ final, Names (interfered config outcome update doc.id n member now s) member at_ final ∧
      (update.Stands final ↔ Respected config outcome update doc text member at_ now n) := by
  unfold interfered execute
  rw [hparse]
  dsimp only
  cases n with
  | zero =>
    have hchanged : Names (s.changed doc.id update.apply update.apply_id) member at_
        (update.apply doc) := h.changed rfl
    have hskips : (update.apply doc).skips member = true := by
      cases update with
      | cancel => simp [Reminder.skips, UserUpdate.apply]
      | reschedule dateKey next occurrence =>
        simp [Reminder.skips, UserUpdate.apply, hnew.1, hnew.2]
    refine ⟨update.apply doc, ?_, iff_of_true stands_apply .beforeRead⟩
    rw [disturbed_zero, eval_issue_bind]
    simp only [answer, hchanged.find hparse, hskips, if_true]
    exact hchanged
  | succ n =>
    rw [disturbed_issue_bind]
    simp only [answer, h.find hparse]
    split
    · next hskips =>
      exact ⟨_, (names_congr disturbed_complete).mpr (h.changed rfl),
        iff_of_true stands_apply (.skipped hskips)⟩
    · next hskips =>
      cases hlate : isLate config now at_ with
      | true => exact late_stands h hparse hskips hlate
      | false =>
        cases n with
        | zero => exact beforeClaim_stands h hparse hskips hlate
        | succ n => exact afterClaim_stands h hparse hskips hlate

end Interference

/-- A change by the user during an execution stands exactly where the execution respects it. -/
theorem user_update_stands_iff (config : Config) (outcome : TriggerEvent → DispatchOutcome)
    (update : UserUpdate) (n : Nat) (now : Instant) {s : State} {member reminderId : String}
    {occurrenceAt : Instant} {reminder : Reminder}
    (hparse : parseMember member = some (reminderId, occurrenceAt))
    (hfind : s.find? reminderId = some reminder) (hnew : update.IsNew member) :
    (∃ final ∈ (interfered config outcome update reminder.id n member now s).reminders,
        final.id = reminder.id ∧ update.Stands final) ↔
      Respected config outcome update reminder reminderId member occurrenceAt now n := by
  have hnames : Names s member occurrenceAt reminder := ⟨reminderId, hparse, hfind⟩
  obtain ⟨final, hfinal, hiff⟩ : ∃ final,
      Names (interfered config outcome update reminder.id n member now s) member occurrenceAt
        final ∧ (update.Stands final ↔
          Respected config outcome update reminder reminderId member occurrenceAt now n) :=
    execute_stands hnames hparse hnew
  rw [← hiff]
  have hkey : final.key = reminder.key :=
    (Keyed.find?_eq_some (hfinal.find hparse)).2.trans (Keyed.find?_eq_some hfind).2.symm
  constructor
  · rintro ⟨other, hmem, hid, hstands⟩
    obtain rfl : other = final := Keyed.eq_of_key (State.ids_nodup _) hmem hfinal.mem
      ((congrArg ReminderId.str hid).trans hkey.symm)
    exact hstands
  · intro hstands
    refine ⟨final, hfinal.mem, ?_, hstands⟩
    exact ReminderId.ext hkey

theorem user_update_stands_sample :
    ∃ final ∈ (interfered sampleConfig (fun _ => .sent) .cancel sampleReminder.id 1 sampleMember
        sampleState.clock sampleState).reminders,
      final.id = sampleReminder.id ∧ UserUpdate.cancel.Stands final :=
  (user_update_stands_iff sampleConfig (fun _ => .sent) .cancel 1 sampleState.clock
    (show parseMember sampleMember = some ("r1", 20000 * day) by decide +kernel)
    (show sampleState.find? "r1" = some sampleReminder by decide +kernel) trivial).mpr
      (.cancelledBeforeClaim (by decide +kernel) rfl)

/-- The user cancels while the claimed occurrence is about to be sent. `mark_delivered` makes the
reminder DELIVERED. -/
theorem cancellation_overwritten :
    sampleState.find? "r1" = some sampleReminder ∧
    (interfered sampleConfig (fun _ => .sent) .cancel sampleReminder.id 2 sampleMember
      sampleState.clock sampleState).reminders.map Reminder.deliveryStatus = [.delivered] ∧
    ¬ ∃ final ∈ (interfered sampleConfig (fun _ => .sent) .cancel sampleReminder.id 2 sampleMember
        sampleState.clock sampleState).reminders,
      final.id = sampleReminder.id ∧ UserUpdate.cancel.Stands final := by
  have hstatus : (interfered sampleConfig (fun _ => .sent) .cancel sampleReminder.id 2 sampleMember
      sampleState.clock sampleState).reminders.map Reminder.deliveryStatus = [.delivered] := by
    decide +kernel
  refine ⟨by decide +kernel, hstatus, ?_⟩
  rintro ⟨final, hmem, -, hstands⟩
  have hfinal : final.deliveryStatus ∈ _ := List.mem_map.mpr ⟨final, hmem, rfl⟩
  rw [hstatus, List.mem_singleton, show final.deliveryStatus = .cancelled from hstands] at hfinal
  cases hfinal

end AiBuddy.Reminders
