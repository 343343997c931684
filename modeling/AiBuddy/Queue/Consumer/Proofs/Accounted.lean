import AiBuddy.Queue.Consumer.Proofs.Contract
import AiBuddy.Queue.JobLease.Proofs.LeaseHistory

/-!
# No event is lost

A delivery and a relay each take one entry off a stream. Before that its tasks have written a copy
of it, or a handler of the event has returned. Over any number of them at once, some entry is
therefore left that no task has copied.
-/

namespace AiBuddy.Queue.Consumer

open Program Redis JobLease

variable {settings : LeaseSettings} {s s' after : State} {origin event copy : EventEnvelope}
  {logicalKey : String} {lease : Lease} {db db' : Db Key} {destination : Destination}
  {messageId : Nat} {heard : List Fact} {limit : Int}

theorem marked_owner {effect : Db Key → Db Key} {reply : Except Error Int}
    (h : OwnerOutcome lease effect db reply db')
    (heffect : (effect db).live (.jobDone logicalKey) = db.live (.jobDone logicalKey))
    (hdone : MarkedDone db' logicalKey) : MarkedDone db logicalKey := by
  cases h with
  | failed | refused => exact hdone
  | done => rwa [MarkedDone, heffect] at hdone

/-- Only a completion marks a job as done. -/
theorem marked_call {called : CallEvent} (h : CallStep settings db called db')
    (hdone : MarkedDone db' logicalKey) :
    MarkedDone db logicalKey ∨
      ∃ lease, called.call = .complete lease ∧ logicalKey = lease.logicalKey := by
  obtain ⟨rfl, nowMs, h⟩ := h
  obtain ⟨db, call, reply⟩ := called
  cases call with
  | acquire =>
    obtain ⟨answer, -, outcome⟩ := acquire_outcome h
    refine .inl ?_
    cases outcome with
    | failed | completed | busy => exact hdone
    | duplicate => rwa [MarkedDone, Db.withRecord, Db.live_put_of_ne _ (by simp)] at hdone
    | run =>
      rwa [MarkedDone, Db.withRecord, Db.live_put_of_ne _ (by simp),
        Db.live_put_of_ne _ (by simp)] at hdone
  | renew lease =>
    rw [Call.eval, eval_flag] at h
    obtain ⟨-, rfl⟩ := Prod.mk.inj h
    exact .inl (marked_owner (renewEval_outcome settings lease nowMs db)
      (Db.live_put_of_ne _ (by simp) _) hdone)
  | release lease =>
    rw [Call.eval, eval_flag] at h
    obtain ⟨-, rfl⟩ := Prod.mk.inj h
    exact .inl
      (marked_owner (releaseEval_outcome lease db) (Db.live_remove_of_ne _ (by simp)) hdone)
  | complete lease =>
    rw [Call.eval, eval_flag] at h
    obtain ⟨-, rfl⟩ := Prod.mk.inj h
    by_cases hkey : logicalKey = lease.logicalKey
    · exact .inr ⟨lease, rfl, hkey⟩
    · exact .inl (marked_owner (completeEval_outcome settings lease db)
        (Db.live_put_of_ne _ (by simp [hkey]) _) hdone)

/-- The answer `completed` comes from a marker. -/
theorem marked_of_completed {nowMs : Int} {token seen : String}
    {answer : Except Error (String × String × String)}
    (h : AcquireOutcome settings lease nowMs db answer db')
    (hanswer : decisionOf answer = .ok (.decision "completed" token seen)) :
    MarkedDone db lease.logicalKey := by
  cases h with
  | completed marker hmarker =>
    obtain ⟨expireAt, hlive⟩ := string?_eq_some.mp hmarker
    exact Option.isSome_iff_exists.mpr ⟨_, hlive⟩
  | failed | duplicate | busy | run => simp [decisionOf] at hanswer

def Finishes (origin : EventEnvelope) (s : State) (logicalKey : String) : Prop :=
  logicalKey ∈ s.finished ∧ ∃ copy, CopyOf origin copy ∧ logicalJobKey copy = logicalKey

/-- An entry is left that no task has copied, or the event needs none. -/
structure Inv (limit : Int) (origin : EventEnvelope) (s : State) : Prop where
  entries : ∀ destination, ∀ entry ∈ s.entries destination,
    entry.1 < s.nextId ∧ CopyWithin limit origin entry.2
  untold : ∀ messageId, s.nextId ≤ messageId → s.told messageId = []
  markers : ∀ logicalKey, MarkedDone s.db logicalKey → logicalKey ∈ s.finished
  finishes : ∀ messageId logicalKey, .owner logicalKey ∈ s.told messageId ∨
    .completed logicalKey ∈ s.told messageId → Finishes origin s logicalKey
  kept : (∃ logicalKey, Finishes origin s logicalKey) ∨
    ∃ destination, ∃ entry ∈ s.entries destination, .copyAnswered ∉ s.told entry.1

/-- The streams are as they were, and no job is taken off the finished ones. -/
theorem Inv.beside (inv : Inv limit origin s) {finished : List String}
    (hfinished : s.finished ⊆ finished)
    (hmarked : ∀ logicalKey, MarkedDone db logicalKey →
      MarkedDone s.db logicalKey ∨ logicalKey ∈ s.finished) :
    Inv limit origin { s with db := db, finished := finished } where
  entries := inv.entries
  untold := inv.untold
  markers := fun logicalKey hdone =>
    hfinished ((hmarked logicalKey hdone).elim (inv.markers logicalKey) id)
  finishes := fun messageId logicalKey h =>
    (inv.finishes messageId logicalKey h).imp_left fun h => hfinished h
  kept := inv.kept.imp_left fun ⟨logicalKey, hkey, hcopy⟩ => ⟨logicalKey, hfinished hkey, hcopy⟩

theorem Inv.calls (inv : Inv limit origin s) {called : CallEvent} {finished : List String}
    (h : CallStep settings s.db called db) (hfinished : s.finished ⊆ finished)
    (hcompletes : ∀ lease, called.call = .complete lease → lease.logicalKey ∈ s.finished) :
    Inv limit origin { s with db := db, finished := finished } :=
  inv.beside hfinished fun _ hdone => (marked_call h hdone).imp_right fun
    ⟨lease, hcall, hkey⟩ => hkey ▸ hcompletes lease hcall

theorem Inv.besides (inv : Inv limit origin s) (h : Beside settings s s') :
    Inv limit origin s' := by
  cases h with
  | passes millis =>
    refine inv.beside (List.Subset.refl _) fun _ hdone => .inl ?_
    obtain ⟨entry, hentry⟩ := Option.isSome_iff_exists.mp hdone
    exact Option.isSome_iff_exists.mpr ⟨entry, live_advance hentry⟩
  | calls step completes => exact inv.calls step (List.Subset.refl _) completes
  | finishes logicalKey => exact inv.beside (List.subset_cons_self _ _) fun _ => .inl

theorem Inv.add (inv : Inv limit origin s) (hcopy : CopyWithin limit origin copy) :
    Inv limit origin (s.add destination (some copy)) where
  entries := by
    intro other entry hentry
    change entry ∈ (if other = destination then _ else _) at hentry
    change entry.1 < s.nextId + 1 ∧ _
    have hold : entry ∈ s.entries other →
        entry.1 < s.nextId + 1 ∧ CopyWithin limit origin entry.2 :=
      fun h => (inv.entries other entry h).imp_left fun hid => by omega
    split at hentry
    · rcases List.mem_cons.mp hentry with rfl | hentry
      · exact ⟨by simp, hcopy⟩
      · exact hold hentry
    · exact hold hentry
  untold := fun messageId hid => inv.untold messageId (Nat.le_of_succ_le hid)
  markers := inv.markers
  finishes := inv.finishes
  kept := .inr ⟨destination, (s.nextId, copy), by simp [State.add], by
    simp [State.add, inv.untold s.nextId (Nat.le_refl _)]⟩

/-- An entry whose tasks have copied it, or need not, may be taken away. -/
theorem Inv.remove (inv : Inv limit origin s) (h : Settled (s.told messageId)) :
    Inv limit origin (s.remove destination messageId) where
  entries := by
    intro other entry hentry
    refine inv.entries other entry ?_
    change entry ∈ (if other = destination then _ else _) at hentry
    split at hentry
    · exact (List.mem_filter.mp hentry).1
    · exact hentry
  untold := inv.untold
  markers := inv.markers
  finishes := inv.finishes
  kept := by
    rcases h with hcopied | ⟨logicalKey, hcompleted⟩ | ⟨-, logicalKey, howner⟩
    · refine inv.kept.imp_right fun ⟨other, entry, hentry, hnone⟩ => ⟨other, entry, ?_, hnone⟩
      have hne : entry.1 ≠ messageId := fun hid => hnone (hid ▸ hcopied)
      change entry ∈ if other = destination then _ else _
      split
      · exact List.mem_filter.mpr ⟨hentry, by simpa using hne⟩
      · exact hentry
    · exact .inl ⟨logicalKey, inv.finishes _ _ (.inr hcompleted)⟩
    · exact .inl ⟨logicalKey, inv.finishes _ _ (.inl howner)⟩

theorem Inv.tell (inv : Inv limit origin s) (hid : messageId < s.nextId)
    (hfinishes : ∀ logicalKey, .owner logicalKey ∈ heard ∨ .completed logicalKey ∈ heard →
      Finishes origin s logicalKey)
    (hcopied : .copyAnswered ∈ heard → ∃ destination, ∃ entry ∈ s.entries destination,
      entry.1 ≠ messageId ∧ .copyAnswered ∉ s.told entry.1) :
    Inv limit origin (s.tell messageId heard) where
  entries := inv.entries
  untold := fun other hother => by
    change (if other = messageId then _ else _) = _
    rw [if_neg (by rintro rfl; exact Nat.not_le.mpr hid hother), inv.untold other hother]
  markers := inv.markers
  finishes := fun other logicalKey h => by
    change _ ∈ (if other = messageId then _ else _) ∨ _ ∈ (if other = messageId then _ else _) at h
    split at h
    · rw [List.mem_append, List.mem_append] at h
      rcases h with (h | h) | (h | h)
      · exact hfinishes _ (.inl h)
      · exact inv.finishes _ _ (.inl h)
      · exact hfinishes _ (.inr h)
      · exact inv.finishes _ _ (.inr h)
    · exact inv.finishes _ _ h
  kept := by
    by_cases hheard : .copyAnswered ∈ heard
    · obtain ⟨other, entry, hentry, hne, hnone⟩ := hcopied hheard
      exact .inr ⟨other, entry, hentry, by simpa [State.tell, hne] using hnone⟩
    · refine inv.kept.imp_right fun ⟨other, entry, hentry, hnone⟩ => ⟨other, entry, hentry, ?_⟩
      change _ ∉ if entry.1 = messageId then _ else _
      split
      · next hsame => exact fun h => (List.mem_append.mp h).elim hheard (hsame ▸ hnone)
      · exact hnone

theorem CopyWithin.trans (h : CopyWithin limit origin event) (hcopy : CopyWithin limit event copy) :
    CopyWithin limit origin copy := by
  obtain ⟨hevent, hattempt⟩ := h
  obtain ⟨hcopy, hattempt'⟩ := hcopy
  refine ⟨?_, by omega⟩
  unfold CopyOf at *
  rw [hcopy, hevent]

theorem performs_frame {β : Type} {command : Command β} {reply : β}
    (h : performs settings command s reply after) :
    after.told = s.told ∧ s.nextId ≤ after.nextId := by
  cases command with
  | script called =>
    obtain ⟨nowMs, hanswers⟩ := h
    rcases hanswers.state with rfl | rfl <;> exact ⟨rfl, Nat.le_refl _⟩
  | xadd destination added =>
    rcases Answers.state h with rfl | rfl
    · exact ⟨rfl, Nat.le_refl _⟩
    · cases added with
      | none => exact ⟨rfl, Nat.le_refl _⟩
      | some copy => exact ⟨rfl, Nat.le_succ _⟩
  | xack | xdel => rcases Answers.state h with rfl | rfl <;> exact ⟨rfl, Nat.le_refl _⟩
  | handle | lost | settled | lose | preserve | onDeadLetter =>
    obtain rfl : after = s := h
    exact ⟨rfl, Nat.le_refl _⟩

theorem answer_of_script {nowMs : Int} {called : Call} {reply : Reply}
    (h : (s.script settings nowMs called).1 = .ok reply) :
    (called.eval settings nowMs s.db).1 = .ok reply := by
  change Except.mapError _ (called.eval settings nowMs s.db).1 = .ok reply at h
  cases hanswer : (called.eval settings nowMs s.db).1 with
  | error => rw [hanswer] at h; cases h
  | ok => rw [hanswer] at h; exact congrArg _ (Except.ok.inj h)

section Steps

variable {entry : Entry} {nowMs : Int} {called : Call} {reply : Except Fault Reply}
  (inv : Inv limit origin s) (hparsed : entry.parsed = some event) (hcopy : CopyOf origin event)
  (hmay : May entry (s.told messageId) (.script called))
  (hanswers : Answers .redis (State.script settings nowMs called) s reply after)

include inv hmay hanswers

theorem Inv.script : Inv limit origin after := by
  rcases hanswers.state with rfl | rfl
  · exact inv
  have hstep : CallStep settings s.db ⟨s.db, called, (called.eval settings nowMs s.db).1⟩
      (called.eval settings nowMs s.db).2 := ⟨rfl, nowMs, rfl⟩
  refine inv.calls hstep ?_ ?_
  · split
    · exact List.subset_cons_self _ _
    · exact List.Subset.refl _
  · rintro lease rfl
    exact (inv.finishes messageId _ (.inl hmay)).1

include hparsed hcopy

/-- Redis confirms an owner for the job of the entry, and a marker belongs to a finished job. -/
theorem Inv.script_finishes (h : .owner logicalKey ∈ scriptFacts called reply ∨
    .completed logicalKey ∈ scriptFacts called reply) : Finishes origin after logicalKey := by
  unfold scriptFacts at h
  split at h
  · next job owner message action token seen =>
    split at h
    · next haction =>
      have hkey : logicalKey = logicalJobKey job := by simpa using h
      obtain rfl := Option.some.inj (hparsed.symm.trans hmay)
      have hran := hanswers.of_ok
      obtain ⟨answer, hdecision, outcome⟩ := acquire_outcome
        (show (Call.acquire event owner message).eval settings nowMs s.db = (_, _) from rfl)
      have hmarked := marked_of_completed outcome
        (hdecision.symm.trans (haction ▸ answer_of_script (congrArg Prod.fst hran)))
      rw [leaseFor_logicalKey] at hmarked
      have hfinished : (s.script settings nowMs (.acquire event owner message)).2.finished =
        s.finished := rfl
      rw [hran] at hfinished
      rw [hkey]
      exact ⟨hfinished ▸ inv.markers _ hmarked, event, hcopy, rfl⟩
    · simp at h
  · next lease =>
    obtain rfl : logicalKey = lease.logicalKey := by simpa using h
    obtain ⟨job, hjob, hkey⟩ := hmay
    obtain rfl := Option.some.inj (hparsed.symm.trans hjob)
    have hran := hanswers.of_ok
    have hfinished : (s.script settings nowMs (.renew lease)).2.finished =
        lease.logicalKey :: s.finished := by
      simp only [State.script, answer_of_script (congrArg Prod.fst hran)]
    rw [hran] at hfinished
    exact ⟨hfinished ▸ List.mem_cons_self, event, hcopy, hkey.symm⟩
  · simp at h

end Steps

/-- A task of an entry issues a command that it may issue. -/
def Steps (settings : LeaseSettings) (limit : Int) (origin : EventEnvelope) {β : Type}
    (task : TaskCommand β) (s s' : State) : Prop :=
  ∃ entry event, entry.messageId = task.label ∧ entry.limit = limit ∧ entry.parsed = some event ∧
    CopyWithin limit origin event ∧ task.label < s.nextId ∧
    May entry (s.told task.label) task.command ∧
      ∃ reply, tells settings task s reply s'

theorem Inv.tell_quiet (inv : Inv limit origin s) (hid : messageId < s.nextId)
    (hquiet : .copyAnswered ∉ heard ∧
      ∀ logicalKey, .owner logicalKey ∉ heard ∧ .completed logicalKey ∉ heard) :
    Inv limit origin (s.tell messageId heard) :=
  inv.tell hid (fun _ h => (h.elim (hquiet.2 _).1 (hquiet.2 _).2).elim)
    fun h => absurd h hquiet.1

theorem Inv.step {β : Type} {task : TaskCommand β} (inv : Inv limit origin s)
    (h : Steps settings limit origin task s s') : Inv limit origin s' := by
  obtain ⟨entry, event, hentry, rfl, hparsed, hcopy, hid, hmay, reply, after, hperform, rfl⟩ := h
  obtain ⟨messageId, command⟩ := task
  have hafter : messageId < after.nextId := Nat.lt_of_lt_of_le hid (performs_frame hperform).2
  cases command with
  | script called =>
    obtain ⟨nowMs, hanswers⟩ := hperform
    refine (inv.script hmay hanswers).tell hafter
      (fun _ h => inv.script_finishes hparsed hcopy.1 hmay hanswers h) fun h => ?_
    obtain ⟨_, h | h⟩ := scriptFacts_eq h <;> cases h
  | xadd destination added =>
    obtain ⟨added, rfl, hadded⟩ := hmay.2 event hparsed
    have hadd : Inv entry.limit origin (s.add destination (some added)) :=
      inv.add (hcopy.trans hadded)
    cases hperform with
    | answered =>
      refine hadd.tell hafter (by simp [facts]) fun _ => ⟨destination, (s.nextId, added), ?_⟩
      refine ⟨by simp [State.add], Nat.ne_of_gt hid, ?_⟩
      simp [State.add, inv.untold s.nextId (Nat.le_refl _)]
    | unsent => exact inv.tell_quiet hafter (by simp [facts])
    | unheard => exact hadd.tell_quiet hafter (by simp [facts])
  | xack removed | xdel _ removed =>
    obtain ⟨rfl, hsettled⟩ := hmay
    have hkeeps : Inv entry.limit origin after := by
      rcases Answers.state hperform with rfl | rfl
      · exact inv
      · exact inv.remove (hentry ▸ hsettled)
    exact hkeeps.tell_quiet hafter (by simp [facts])
  | handle =>
    obtain rfl : after = s := hperform
    refine inv.tell_quiet hafter ?_
    rcases reply with error | _ <;> simp [facts, handleFacts]
  | lost =>
    obtain rfl : after = s := hperform
    exact inv.tell_quiet hafter (by cases reply <;> simp [facts])
  | settled | lose | preserve | onDeadLetter =>
    obtain rfl : after = s := hperform
    exact inv.tell_quiet hafter (by simp [facts])

/-- Tasks are told more, and entries added. -/
def Later (s s' : State) : Prop :=
  s.nextId ≤ s'.nextId ∧ ∀ messageId, s.told messageId ⊆ s'.told messageId

theorem Later.refl (s : State) : Later s s :=
  ⟨Nat.le_refl _, fun _ => List.Subset.refl _⟩

theorem Later.trans (h : Later s s') (hlater : Later s' after) : Later s after :=
  ⟨Nat.le_trans h.1 hlater.1, fun messageId =>
    List.Subset.trans (h.2 messageId) (hlater.2 messageId)⟩

theorem Later.tells {β : Type} {task : TaskCommand β} {reply : β}
    (h : tells settings task s reply s') : Later s s' := by
  obtain ⟨after, hperform, rfl⟩ := h
  obtain ⟨htold, hid⟩ := performs_frame hperform
  refine ⟨hid, fun messageId => ?_⟩
  change s.told messageId ⊆ if messageId = task.label then _ else _
  rw [htold]
  split
  · exact List.subset_append_right _ _
  · exact List.Subset.refl _

/-- A task that obeys for the entry it takes up is safe among all the others. -/
theorem Obeys.task {entry : Entry} {prog : Consuming Unit} (inv : Inv limit origin s)
    (hlimit : entry.limit = limit) (hparsed : entry.parsed = some event)
    (hlisted : (entry.messageId, event) ∈ s.entries destination)
    (h : Obeys entry (fun _ _ => True) prog (s.told entry.messageId)) :
    Safe (tells settings) Later (Steps settings limit origin) (fun _ _ => True)
      (task entry.messageId prog) s := by
  obtain ⟨hid, hcopy⟩ := inv.entries _ _ hlisted
  refine Safe.lift (fun s => s.told entry.messageId) (fun s => entry.messageId < s.nextId)
    ?_ ?_ hid h
  · exact fun s s' hready hlater => ⟨Nat.lt_of_lt_of_le hready hlater.1, hlater.2 _⟩
  · intro β command s reply s' hready htells
    refine ⟨Nat.lt_of_lt_of_le hready (Later.tells htells).1, ?_, fun hown => ?_⟩
    · obtain ⟨after, hperform, rfl⟩ := htells
      simp [hears, State.tell, (performs_frame hperform).1]
    · exact ⟨entry, event, rfl, hlimit, hparsed, hcopy, hready, hown.1, reply, htells⟩

theorem Inv.starts {prog : Program TaskCommand (Except Fault Unit)} (inv : Inv limit origin s)
    (h : Starts limit s prog) :
    Safe (tells settings) Later (Steps settings limit origin) (fun _ _ => True) prog s := by
  cases h with
  | @delivery host messageId event listed limited =>
    have hobeys : Obeys ⟨messageId, some event, limit, false⟩ (fun _ _ => True)
        (processMessage host messageId (some event)) (s.told messageId) :=
      obeys_processMessage limited nofun
    exact hobeys.task inv rfl rfl listed
  | @relay messageId event newId listed =>
    have hobeys : Obeys ⟨messageId, some event, limit, true⟩ (fun _ _ => True)
        (relayEntry messageId event newId) (s.told messageId) := obeys_relayEntry rfl rfl
    exact hobeys.task inv rfl rfl listed

theorem Published.inv (h : Published origin s) : Inv limit origin s := by
  obtain ⟨messageId, hlisted, hid⟩ := h.listed
  refine ⟨fun destination entry hentry => ?_, fun _ _ => h.untold _, h.markers, ?_, .inr
    ⟨.stream, (messageId, origin), by simp [hlisted], by simp [h.untold]⟩⟩
  · by_cases hstream : destination = .stream
    · subst hstream
      rw [hlisted] at hentry
      obtain rfl := List.mem_singleton.mp hentry
      exact ⟨hid, .refl _ _⟩
    · rw [h.alone destination hstream] at hentry
      cases hentry
  · simp [h.untold]

theorem DeliveryRun.inv {start : State} {pool : DeliveryPool} (h : Published origin start)
    (hrun : DeliveryRun settings limit start pool) : Inv limit origin pool.shared := by
  have hlater : ∀ s s' after, Later s s' → Later s' after → Later s after :=
    fun _ _ _ => Later.trans
  refine (Pool.Run.invariant (Inv limit origin) (Steps settings limit origin) hlater Later.refl
    ?_ ?_ ?_ h.inv hrun .refl).1
  · refine fun _ _ inv hbeside => ⟨?_, inv.besides hbeside⟩
    cases hbeside <;> exact ⟨Nat.le_refl _, fun _ => List.Subset.refl _⟩
  · intro β task s s' inv hstep
    obtain ⟨entry, event, -, -, -, -, -, -, reply, htells⟩ := id hstep
    exact ⟨Later.tells htells, inv.step hstep⟩
  · exact fun prog s inv hstarts => inv.starts hstarts

/-- No event is lost, over any order of deliveries and relays, wherever they stop and whatever
fails: a copy is in its stream, in the retry stream or in the dead-letter stream, or a handler has
returned for one of its jobs in an attempt that held the lease. -/
theorem event_accounted {start : State} {pool : DeliveryPool} (h : Published origin start)
    (hrun : DeliveryRun settings limit start pool) : Accounted origin pool.shared := by
  have inv := DeliveryRun.inv h hrun
  refine ⟨fun destination entry hentry => (inv.entries destination entry hentry).2.1, ?_⟩
  rcases inv.kept with ⟨logicalKey, hkey, copy, hcopy, rfl⟩ | ⟨destination, entry, hentry, -⟩
  · exact .inr ⟨copy, hcopy, hkey⟩
  · exact .inl ⟨destination, List.ne_nil_of_mem hentry⟩

/-- No entry has more attempts than the event had at first, or than the consumers allow. -/
theorem attempts_bounded {start : State} {pool : DeliveryPool} (h : Published origin start)
    (hrun : DeliveryRun settings limit start pool) :
    ∀ destination, ∀ entry ∈ pool.shared.entries destination,
      entry.2.attempt ≤ max origin.attempt limit :=
  fun destination entry hentry => ((DeliveryRun.inv h hrun).entries destination entry hentry).2.2

def samplePublished : State where
  db := ⟨0, fun _ => none⟩
  entries
    | .stream => [(0, sampleEvent)]
    | _ => []
  nextId := 1

theorem samplePublished_published : Published sampleEvent samplePublished where
  listed := ⟨0, rfl, by decide⟩
  alone := fun destination h => by cases destination <;> first | exact absurd rfl h | rfl
  untold := fun _ => rfl
  markers := fun _ h => by cases h

/-- A delivery whose `acquire` does not reach Redis. -/
theorem sampleDelivery :
    ∃ threads, DeliveryRun {} 3 samplePublished ⟨threads, samplePublished.tell 0 []⟩ := by
  have hdelivered : Starts 3 samplePublished (task 0 (processMessage sampleHost 0
      (some sampleEvent))) := .delivery (by decide) (by decide)
  have hunsent : tells {} ⟨0, .script (.acquire sampleEvent "w1" "0")⟩ samplePublished
      (.error .redis) (samplePublished.tell 0 []) := ⟨samplePublished, ⟨0, .unsent⟩, rfl⟩
  exact ⟨_, .tail (.single (.spawn hdelivered))
    (@Pool.Step.call _ _ _ _ _ _ [] _ _ _ _ _ _ _ hunsent)⟩

theorem event_accounted_sample : Accounted sampleEvent (samplePublished.tell 0 []) :=
  sampleDelivery.elim fun _ hrun => event_accounted samplePublished_published hrun

theorem attempts_bounded_sample :
    ((samplePublished.tell 0 []).entries .stream).all fun entry => entry.2.attempt ≤ 3 :=
  sampleDelivery.elim fun _ hrun => List.all_eq_true.mpr fun entry hentry =>
    decide_eq_true (attempts_bounded samplePublished_published hrun .stream entry hentry)

end AiBuddy.Queue.Consumer
