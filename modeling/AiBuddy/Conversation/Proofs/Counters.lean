import Mathlib.Data.List.Perm.Subperm
import AiBuddy.Conversation.Proofs.SessionRuns

/-!
# The counters of a conversation

A chunk becomes COMPLETED at most once, and the operation that made it so is the only one that
counts it. So the counter of completed chunks is exact but for the completions whose second write
has not landed. As long as no chunk leaves FAILED for another attempt, the same holds of failures.
-/

namespace AiBuddy.Conversation.Session

open Program Queue.JobLease Queue.MongoFence

variable {sequence : Nat} {accepts : Chunk → Bool} {change : Chunk → Chunk}

theorem ChunkUpdate.completed {label : SessionLabel} {chunk : Chunk}
    (h : ChunkUpdate label sequence accepts change) (haccepts : accepts chunk = true)
    (hstatus : chunk.sttStatus = .completed) :
    (change chunk).sttStatus = .completed := by
  cases h with
  | mark => simp [Chunk.retryable, Chunk.open?, hstatus] at haccepts
  | complete request => rfl
  | fail request => simp [Chunk.retryable, Chunk.open?, hstatus] at haccepts
  | reclaim => simp [Chunk.stale, hstatus] at haccepts
  | exclude => exact hstatus
  | assign => exact hstatus

variable {token : Option Int}

theorem ChunkUpdate.failed {label : SessionLabel} {s : State} {chunk : Chunk}
    (h : ChunkUpdate label sequence accepts change)
    (hfound : s.findChunk sequence accepts token = some chunk)
    (hspares : sparesFailed label (.updateChunk sequence accepts change token) s = true)
    (hstatus : chunk.sttStatus = .failed) :
    (change chunk).sttStatus = .failed ∨ (change chunk).sttStatus = .completed := by
  have haccepts := State.accepts_of_findChunk hfound
  cases h with
  | mark => simp [sparesFailed, hfound, hstatus] at hspares
  | complete request => exact .inr rfl
  | fail request => exact .inl rfl
  | reclaim => simp [Chunk.stale, hstatus] at haccepts
  | exclude => exact .inl hstatus
  | assign => exact .inl hstatus

variable {allowed : SessionCondition} {label : SessionLabel} {s s' : State} {k : Nat}

theorem SessionMove.status (h : SessionMove allowed label s s') {status : STTStatus}
    (hbefore : s.statusAt k = some status) :
    s'.statusAt k = some status ∨
      ∃ accepts change token found, ChunkUpdate label k accepts change ∧
        s.findChunk k accepts token = some found ∧ found.sttStatus = status ∧
        allowed label (.updateChunk k accepts change token) s ∧
        s'.statusAt k = some (change found).sttStatus := by
  cases h with
  | nothing => exact .inl hbefore
  | @chunk sequence accepts change token found hupdate hfound hallowed =>
    rw [State.statusAt_updateChunk hfound]
    by_cases hk : k = sequence
    · subst hk
      have hstatus := Option.some.inj ((State.statusAt_of_findChunk hfound).symm.trans hbefore)
      exact .inr ⟨accepts, change, token, found, hupdate, hfound, hstatus, hallowed, if_pos rfl⟩
    · rw [if_neg hk]
      exact .inl hbefore
  | inserted _ hnew => exact .inl ((State.statusAt_insertChunk hnew).mpr (.inr hbefore))
  | conversation => exact .inl hbefore
  | windows hchunks =>
    refine .inl ?_
    rw [State.statusAt, hchunks]
    exact hbefore

theorem SessionMove.completed (h : SessionMove allowed label s s')
    (hbefore : s.statusAt k = some .completed) : s'.statusAt k = some .completed := by
  rcases h.status hbefore with hsame | ⟨accepts, change, token, found, hupdate, hfound, hstatus, -,
    hafter⟩
  · exact hsame
  · rw [hafter, hupdate.completed (State.accepts_of_findChunk hfound) hstatus]

def Concluded (s : State) (k : Nat) : Prop :=
  s.statusAt k = some .failed ∨ s.statusAt k = some .completed

theorem SessionMove.concluded (h : SessionMove allowed label s s')
    (hspares : ∀ (label : SessionLabel) {α : Type} (command : Command α) (s : State),
      allowed label command s → sparesFailed label command s = true)
    (hbefore : Concluded s k) : Concluded s' k := by
  rcases hbefore with hfailed | hcompleted
  · rcases h.status hfailed with hsame | ⟨accepts, change, token, found, hupdate, hfound, hstatus,
      hallowed, hafter⟩
    · exact .inl hsame
    · rcases hupdate.failed hfound (hspares _ _ _ hallowed) hstatus with hchange | hchange
      · exact .inl (hafter.trans (congrArg some hchange))
      · exact .inr (hafter.trans (congrArg some hchange))
  · exact .inr (h.completed hcompleted)

def completes (k : Nat) (event : SessionEvent) : Bool :=
  event.before.statusAt k ≠ some .completed && event.after.statusAt k = some .completed

def fails (k : Nat) (event : SessionEvent) : Bool :=
  event.before.statusAt k ≠ some .failed && event.after.statusAt k = some .failed

def raisesCompleted (event : SessionEvent) : Bool :=
  event.after.completedCount ≠ event.before.completedCount

theorem SessionMove.completedCount (h : SessionMove allowed label s s') :
    s'.completedCount = s.completedCount ∨
      ((∃ k, label = .complete k) ∧ s'.completedCount = s.completedCount + 1) := by
  cases h with
  | nothing => exact .inl rfl
  | chunk => exact .inl rfl
  | inserted _ hnew =>
    refine .inl ?_
    rw [State.insertChunk, dif_neg hnew]
    rfl
  | conversation hupdate hconversation =>
    unfold State.completedCount
    rw [hconversation]
    cases hupdate with
    | record => exact .inl rfl
    | complete request => exact .inr ⟨⟨_, rfl⟩, rfl⟩
    | fail => exact .inl rfl
  | windows _ hconversation =>
    unfold State.completedCount
    rw [hconversation]
    exact .inl rfl

structure Recorded (j : SessionJournal) : Prop where
  completed : ∀ k, j.events.countP (completes k) =
    if j.state.statusAt k = some .completed then 1 else 0
  total : j.state.completedCount = j.events.countP raisesCompleted
  labels : ∀ event ∈ j.events, raisesCompleted event = true → ∃ k, event.label = .complete k

variable {j j' : SessionJournal}

theorem Recorded.entered (hj : Recorded j) (h : Entered allowed label j j') : Recorded j' := by
  obtain ⟨hmove, hevents⟩ := h
  refine ⟨?_, ?_, ?_⟩
  · intro k
    rw [hevents, List.countP_cons, hj.completed k]
    by_cases hbefore : j.state.statusAt k = some .completed
    · have hafter := hmove.completed hbefore
      simp [completes, hbefore, hafter]
    · by_cases hafter : j'.state.statusAt k = some .completed <;> simp [completes, hbefore, hafter]
  · rw [hevents, List.countP_cons, ← hj.total]
    rcases hmove.completedCount with hsame | ⟨-, hraised⟩
    · simp [raisesCompleted, hsame]
    · simp [raisesCompleted, hraised]
  · rw [hevents, List.forall_mem_cons]
    refine ⟨fun hraises => ?_, hj.labels⟩
    rcases hmove.completedCount with hsame | ⟨hlabel, -⟩
    · exact absurd hsame (of_decide_eq_true hraises)
    · exact hlabel

theorem recorded_fresh {start : State} (h : Fresh start) : Recorded ⟨start, []⟩ := by
  refine ⟨?_, ?_, List.forall_mem_nil _⟩
  · intro k
    rw [if_neg]
    · rfl
    · intro hcompleted
      obtain ⟨chunk, hmem, -, hstatus⟩ := State.statusAt_eq_some_iff.mp hcompleted
      rw [h.pending chunk hmem] at hstatus
      cases hstatus
  · unfold State.completedCount
    cases hconversation : start.conversation with
    | none => rfl
    | some conversation => exact h.counters conversation hconversation

def FailsOnce (j : SessionJournal) : Prop :=
  ∀ k, j.events.countP (fails k) = 0 ∨
    (j.events.countP (fails k) = 1 ∧ Concluded j.state k)

theorem FailsOnce.entered
    (hspares : ∀ (label : SessionLabel) {α : Type} (command : Command α) (s : State),
      allowed label command s → sparesFailed label command s = true)
    (hj : FailsOnce j) (h : Entered allowed label j j') : FailsOnce j' := by
  obtain ⟨hmove, hevents⟩ := h
  intro k
  rw [hevents, List.countP_cons]
  rcases hj k with hnone | ⟨hone, hconcluded⟩
  · rw [hnone]
    by_cases hfails : fails k ⟨label, j.state, j'.state⟩ = true
    · rw [if_pos hfails]
      exact .inr ⟨rfl, .inl (of_decide_eq_true (Bool.and_eq_true_iff.mp hfails).2)⟩
    · rw [if_neg hfails]
      exact .inl rfl
  · have hfails : ¬ fails k ⟨label, j.state, j'.state⟩ = true := by
      intro hfails
      obtain ⟨hbefore, hafter⟩ := Bool.and_eq_true_iff.mp hfails
      rcases hconcluded with hfailed | hcompleted
      · exact of_decide_eq_true hbefore hfailed
      · have hstays := hmove.completed hcompleted
        rw [of_decide_eq_true hafter] at hstays
        cases hstays
    rw [if_neg hfails, hone]
    exact .inr ⟨rfl, hmove.concluded hspares hconcluded⟩

def balance (gain cost : SessionEvent → Bool) (j : SessionJournal) : Int :=
  j.events.countP gain - j.events.countP cost

variable {event : SessionEvent}

theorem balance_cons {gain cost : SessionEvent → Bool} (h : j'.events = event :: j.events) :
    balance gain cost j' - balance gain cost j =
      (if gain event = true then 1 else 0) - (if cost event = true then 1 else 0) := by
  unfold balance
  rw [h, List.countP_cons, List.countP_cons]
  split <;> split <;> simp

section Funding

variable {gain cost : SessionEvent → Bool}

theorem balance_le (h : j'.events = event :: j.events) (hcost : cost event = false) :
    0 ≤ balance gain cost j' - balance gain cost j := by
  rw [balance_cons h, hcost]
  split <;> simp

theorem balance_ge (h : j'.events = event :: j.events) :
    -1 ≤ balance gain cost j' - balance gain cost j := by
  rw [balance_cons h]
  split <;> split <;> decide

def CostsConversation (cost : SessionEvent → Bool) : Prop :=
  ∀ event : SessionEvent, event.after.conversation = event.before.conversation → cost event = false

theorem performed_conversation {α : Type} {command : Command α} {reply : Except Mongo.Error α}
    (hkeeps : ∀ s, (State.run 0 command s).2.conversation = s.conversation)
    (h : under label (sessionSemantics allowed) (.send command) j reply j') :
    j'.state.conversation = j.state.conversation := by
  obtain ⟨-, ⟨choice, hanswers⟩, -⟩ := h
  rcases hanswers.state with hsame | hrun
  · exact congrArg State.conversation hsame
  · refine (congrArg State.conversation hrun).trans ?_
    rw [State.run_state]
    exact hkeeps j.state

theorem balance_keeps {α : Type} {command : Command α} {reply : Except Mongo.Error α}
    (hcost : CostsConversation cost)
    (hkeeps : ∀ s, (State.run 0 command s).2.conversation = s.conversation)
    (h : under label (sessionSemantics allowed) (.send command) j reply j') :
    0 ≤ balance gain cost j' - balance gain cost j :=
  balance_le h.2.2 (hcost _ (performed_conversation hkeeps h))

theorem found_of_update {document : Chunk}
    (h : under label (sessionSemantics allowed) (.send (.updateChunk sequence accepts change token))
      j (.ok (some document)) j') :
    ∃ found, j.state.findChunk sequence accepts token = some found ∧
      j'.state = j.state.updateChunk sequence accepts change token ∧
      allowed label (.updateChunk sequence accepts change token) j.state := by
  obtain ⟨hallowed, ⟨choice, hanswers⟩, -⟩ := h
  have hrun := hanswers.of_ok
  simp only [State.run, Prod.mk.injEq, Except.ok.injEq, Option.map_eq_some_iff] at hrun
  obtain ⟨⟨found, hfound, -⟩, hstate⟩ := hrun
  exact ⟨found, hfound, hstate.symm, hallowed⟩

theorem funded_fenced {β γ : Type} {holding : Holding} {command : Option Int → Command (Option β)}
    {probe : Command (Option γ)} {fence : γ → Option Int} {credit least : Int}
    {sem : Semantics (Remote Mongo.Error Command) SessionJournal} {funds : SessionJournal → Int}
    (hcredit : 0 ≤ credit)
    (hcommand : ∀ token j reply j', sem (.send (command token)) j reply j' →
      0 ≤ credit + (funds j' - funds j) ∧
        ∀ document, reply = .ok (some document) → least ≤ credit + (funds j' - funds j))
    (hprobe : ∀ j reply j', sem (.send probe) j reply j' → 0 ≤ funds j' - funds j) :
    Funded sem funds
      (fun outcome credit => 0 ≤ credit ∧ ∀ document, outcome = .ok (some document) →
        least ≤ credit)
      credit (holding.fenced command probe fence).run := by
  have hsent : ∀ token, Funded sem funds
      (fun outcome credit => 0 ≤ credit ∧ ∀ document, outcome = .ok (some document) →
        least ≤ credit)
      credit (sent (command token)).run := by
    intro token
    apply Funded.send hcredit
    intro j reply j' hstep
    obtain ⟨hnonneg, hleast⟩ := hcommand token j reply j' hstep
    refine ⟨hnonneg, fun document hreply => hleast document ?_⟩
    cases reply with
    | ok value => exact congrArg Except.ok (Except.ok.inj hreply)
    | error error => cases hreply
  unfold Holding.fenced
  split
  · exact ⟨hcredit, nofun⟩
  · exact hsent none
  · next token _ =>
    refine Funded.then (hsent (some token)) ?_ fun error credit h => ⟨h.1, nofun⟩
    rintro (_ | document) credit' ⟨hnonneg, hleast⟩
    · have hprobed : Funded sem funds (fun _ credit => 0 ≤ credit) credit' (sent probe).run := by
        apply Funded.send hnonneg
        intro j reply j' hstep
        have hgrows := hprobe j reply j' hstep
        omega
      refine hprobed.then ?_ fun error credit h => ⟨h, nofun⟩
      intro existing credit h
      split
      · exact ⟨h, nofun⟩
      · exact ⟨h, nofun⟩
    · exact ⟨hnonneg, fun found hfound => hleast document rfl⟩

abbrev completedFunds (k : Nat) : SessionJournal → Int :=
  balance (completes k) (countsCompleted k)

abbrev failedFunds (k : Nat) : SessionJournal → Int := balance (fails k) (countsFailed k)

theorem costs_completed (k : Nat) : CostsConversation (countsCompleted k) := by
  intro event hconversation
  simp [countsCompleted, State.completedCount, hconversation]

theorem costs_failed (k : Nat) : CostsConversation (countsFailed k) := by
  intro event hconversation
  simp [countsFailed, State.failedCount, hconversation]

theorem completes_update (label : SessionLabel) (request : Completion) {found : Chunk} {s : State}
    (hfound : s.findChunk request.sequence Chunk.open? token = some found) :
    completes request.sequence ⟨label, s,
      s.updateChunk request.sequence Chunk.open? request.change token⟩ = true := by
  have hopen : found.sttStatus ≠ .completed := of_decide_eq_true (State.accepts_of_findChunk hfound)
  have hbefore := State.statusAt_of_findChunk hfound
  have hafter : (s.updateChunk request.sequence Chunk.open? request.change token).statusAt
      request.sequence = some .completed := by
    rw [State.statusAt_updateChunk hfound, if_pos rfl]
    rfl
  simp only [completes, hbefore, hafter, Bool.and_eq_true, decide_eq_true_eq]
  exact ⟨fun hsame => hopen (Option.some.inj hsame), trivial⟩

theorem fails_update (label : SessionLabel) (request : Failure) {found : Chunk} {s : State}
    (hfound : s.findChunk request.sequence accepts token = some found)
    (hnot : found.sttStatus ≠ .failed) :
    fails request.sequence
      ⟨label, s, s.updateChunk request.sequence accepts request.change token⟩ = true := by
  have hbefore := State.statusAt_of_findChunk hfound
  have hafter : (s.updateChunk request.sequence accepts request.change token).statusAt
      request.sequence = some .failed := by
    rw [State.statusAt_updateChunk hfound, if_pos rfl]
    rfl
  simp only [fails, hbefore, hafter, Bool.and_eq_true, decide_eq_true_eq]
  exact ⟨fun hsame => hnot (Option.some.inj hsame), trivial⟩

theorem funded_complete {request : Completion} :
    Funded (under (.complete request.sequence) (sessionSemantics allowed))
      (completedFunds request.sequence)
      (fun _ credit => 0 ≤ credit) 0 (ended (completeTranscriptChunk request)) := by
  have hcosts := costs_completed request.sequence
  have hupdate : Funded (under (.complete request.sequence) (sessionSemantics allowed))
      (completedFunds request.sequence)
      (fun outcome credit => 0 ≤ credit ∧ ∀ document, outcome = .ok (some document) → 1 ≤ credit) 0
      (request.writing.updateChunk request.sequence Chunk.open? request.change).run := by
    apply funded_fenced (Int.le_refl 0)
    · intro token j reply j' hstep
      rw [Int.zero_add]
      refine ⟨balance_keeps hcosts (fun _ => rfl) hstep, ?_⟩
      rintro document rfl
      obtain ⟨found, hfound, hstate, -⟩ := found_of_update hstep
      have hconversation : j'.state.conversation = j.state.conversation := by rw [hstate]; rfl
      have hgain := completes_update (.complete request.sequence) request hfound
      rw [balance_cons hstep.2.2, hcosts _ hconversation, hstate, if_pos hgain]
      decide
    · exact fun j reply j' hstep => balance_keeps hcosts (fun _ => rfl) hstep
  have hcount : ∀ credit, 1 ≤ credit → Funded
      (under (.complete request.sequence) (sessionSemantics allowed))
      (completedFunds request.sequence)
      (fun outcome credit => 0 ≤ credit ∧ ∀ document, outcome = .ok (some document) → 0 ≤ credit)
      credit (request.counting.updateConversation (fun _ => true) request.count).run := by
    intro credit hcredit
    apply funded_fenced (Int.le_trans Int.one_nonneg hcredit)
    · intro token j reply j' hstep
      have hcost : -1 ≤ completedFunds request.sequence j' - completedFunds request.sequence j :=
        balance_ge hstep.2.2
      have hnonneg : 0 ≤ credit +
          (completedFunds request.sequence j' - completedFunds request.sequence j) := by omega
      exact ⟨hnonneg, fun _ _ => hnonneg⟩
    · exact fun j reply j' hstep => balance_keeps hcosts (fun _ => rfl) hstep
  have hguard : Funded (under (.complete request.sequence) (sessionSemantics allowed))
      (completedFunds request.sequence)
      (fun _ credit => credit = 0) 0 request.writing.guardLease.run := rfl
  refine Funded.bind (hguard.then ?_ fun _ credit h => Int.le_of_eq h.symm)
  rintro _ _ rfl
  refine hupdate.then ?_ fun _ credit h => h.1
  rintro (_ | document) credit ⟨hcredit, hgained⟩
  · exact hcredit
  · refine (hcount credit (hgained document rfl)).then ?_ fun _ credit h => h.1
    exact fun _ credit h => h.1

theorem funded_failExisting {request : Failure} {existing : Chunk}
    (hspares : ∀ (label : SessionLabel) {α : Type} (command : Command α) (s : State),
      allowed label command s → sparesFailed label command s = true) :
    Funded (under (.fail request.sequence (existing.sttStatus ≠ .failed))
      (sessionSemantics allowed))
      (failedFunds request.sequence)
      (fun _ credit => 0 ≤ credit) 0 (ended (failExisting request existing)) := by
  have hcosts := costs_failed request.sequence
  refine Funded.bind ?_
  unfold failExisting
  split
  · exact Int.le_refl 0
  · have hupdate : Funded
        (under (.fail request.sequence (existing.sttStatus ≠ .failed)) (sessionSemantics allowed))
        (failedFunds request.sequence)
        (fun outcome credit => 0 ≤ credit ∧ (existing.sttStatus ≠ .failed →
          ∀ document, outcome = .ok (some document) → 1 ≤ credit)) 0
        (sent (.updateChunk request.sequence Chunk.retryable request.change none)).run := by
      apply Funded.send (Int.le_refl 0)
      intro j reply j' hstep
      have hkeeps : 0 ≤ failedFunds request.sequence j' - failedFunds request.sequence j :=
        balance_keeps hcosts (fun _ => rfl) hstep
      rw [Int.zero_add]
      refine ⟨hkeeps, fun hcounting document hreply => ?_⟩
      have hfound : reply = .ok (some document) := by
        cases reply with
        | ok value => exact congrArg Except.ok (Except.ok.inj hreply)
        | error error => cases hreply
      subst hfound
      obtain ⟨found, hfound, hstate, hallowed⟩ := found_of_update hstep
      have hconversation : j'.state.conversation = j.state.conversation := by rw [hstate]; rfl
      have hnot := hspares _ _ _ hallowed
      rw [decide_eq_true hcounting, sparesFailed, hfound] at hnot
      have hgain := fails_update (.fail request.sequence (existing.sttStatus ≠ .failed)) request
        hfound (of_decide_eq_true hnot)
      rw [failedFunds, balance_cons hstep.2.2, hcosts _ hconversation, hstate, if_pos hgain]
      decide
    refine hupdate.then ?_ fun _ credit h => h.1
    rintro (_ | document) credit ⟨hcredit, hgained⟩
    · exact hcredit
    · dsimp only
      split
      · next hcounting =>
        have hcount : Funded
            (under (.fail request.sequence (existing.sttStatus ≠ .failed))
              (sessionSemantics allowed))
            (failedFunds request.sequence)
            (fun _ credit => 0 ≤ credit) credit
            (sent (.updateConversation (fun _ => true) request.count none)).run := by
          apply Funded.send hcredit
          intro j reply j' hstep
          have hgained := hgained hcounting document rfl
          have hcost : -1 ≤ failedFunds request.sequence j' - failedFunds request.sequence j :=
            balance_ge hstep.2.2
          omega
        exact hcount.then (fun _ _ h => h) fun _ _ h => h
      · exact hcredit

theorem funded_free {prog : Program SessionCommands Unit}
    (h : prog.Issues fun command => ∀ before after, cost ⟨command.label, before, after⟩ = false) :
    Funded (sessionSemantics allowed) (balance gain cost) (fun _ credit => 0 ≤ credit) 0 prog := by
  refine h.funded ?_ (Int.le_refl 0)
  intro β command j reply j' hfree hstep
  have hgrows : 0 ≤ balance gain cost j' - balance gain cost j :=
    balance_le hstep.2.2 (hfree j.state j'.state)
  omega

theorem funded_label {prog : Program (Remote Mongo.Error Command) Unit}
    (h : ∀ before after, cost ⟨label, before, after⟩ = false) :
    Funded (sessionSemantics allowed) (balance gain cost) (fun _ credit => 0 ≤ credit) 0
      (prog.labelled label) := by
  apply funded_free
  exact (issues_label label prog).mono fun command hlabel before after => hlabel ▸ h before after

theorem funded_fail {request : Failure} (hcosts : CostsConversation cost)
    (hrest : ∀ existing : Chunk, Funded (sessionSemantics allowed) (balance gain cost)
      (fun _ credit => 0 ≤ credit) 0 ((ended (failExisting request existing)).labelled
      (.fail request.sequence (existing.sttStatus ≠ .failed)))) :
    Funded (sessionSemantics allowed) (balance gain cost) (fun _ credit => 0 ≤ credit) 0
      (failLabelled request) := by
  have hsent : Funded (under (.fail request.sequence false) (sessionSemantics allowed))
      (balance gain cost) (fun _ credit => 0 ≤ credit) 0
      (sent (.getChunk request.sequence)).run := by
    apply Funded.send (Int.le_refl 0)
    intro j reply j' hstep
    rw [Int.zero_add]
    exact balance_keeps hcosts (fun _ => rfl) hstep
  refine Funded.bind (hsent.labelled.weaken ?_)
  rintro (error | (_ | existing)) credit hcredit
  · exact hcredit
  · exact hcredit
  · exact (hrest existing).more hcredit

theorem funded_completed {settings : Settings} {task : SessionTask} {k : Nat} :
    Funded (sessionSemantics allowed) (completedFunds k) (fun _ credit => 0 ≤ credit) 0
      (task.program settings) := by
  cases task with
  | record metadata => exact funded_label fun _ _ => rfl
  | mark sequence now => exact funded_label fun _ _ => rfl
  | complete request =>
    by_cases hk : request.sequence = k
    · subst hk
      exact (funded_complete).labelled
    · apply funded_label
      intro before after
      simp [countsCompleted, hk]
  | fail request =>
    apply funded_fail (costs_completed k)
    exact fun existing => funded_label fun _ _ => rfl
  | reclaim staleBefore now => exact funded_label fun _ _ => rfl
  | close request => exact funded_label fun _ _ => rfl

theorem funded_failed {settings : Settings} {task : SessionTask} {k : Nat}
    (hspares : ∀ (label : SessionLabel) {α : Type} (command : Command α) (s : State),
      allowed label command s → sparesFailed label command s = true) :
    Funded (sessionSemantics allowed) (failedFunds k) (fun _ credit => 0 ≤ credit) 0
      (task.program settings) := by
  cases task with
  | record metadata => exact funded_label fun _ _ => rfl
  | mark sequence now => exact funded_label fun _ _ => rfl
  | complete request => exact funded_label fun _ _ => rfl
  | fail request =>
    apply funded_fail (costs_failed k)
    intro existing
    by_cases hk : request.sequence = k
    · subst hk
      exact (funded_failExisting hspares).labelled
    · apply funded_label
      intro before after
      simp [countsFailed, hk]
  | reclaim staleBefore now => exact funded_label fun _ _ => rfl
  | close request => exact funded_label fun _ _ => rfl

end Funding

section Runs

variable {settings : Settings} {start : State} {pool : Pool SessionCommands Unit SessionJournal}

theorem recorded_run (hfresh : Fresh start) (run : SessionRun settings allowed start pool) :
    Recorded pool.shared :=
  (sessionRun_invariant Recorded (fun _ _ _ hj h => hj.entered h) (recorded_fresh hfresh) run).2

theorem countsCompleted_le (run : SessionRun settings allowed start pool) (k : Nat) :
    pool.shared.events.countP (countsCompleted k) ≤ pool.shared.events.countP (completes k) := by
  have hcovered : 0 ≤ completedFunds k pool.shared := by
    apply run.covered
    · rintro j j' rfl
      exact Int.le_refl _
    · rintro j prog ⟨task, rfl⟩
      exact funded_completed
    · exact Int.le_refl 0
  unfold completedFunds balance at hcovered
  omega

theorem countsFailed_le
    (hspares : ∀ (label : SessionLabel) {α : Type} (command : Command α) (s : State),
      allowed label command s → sparesFailed label command s = true)
    (run : SessionRun settings allowed start pool) (k : Nat) :
    pool.shared.events.countP (countsFailed k) ≤ pool.shared.events.countP (fails k) := by
  have hcovered : 0 ≤ failedFunds k pool.shared := by
    apply run.covered
    · rintro j j' rfl
      exact Int.le_refl _
    · rintro j prog ⟨task, rfl⟩
      exact funded_failed hspares
    · exact Int.le_refl 0
  unfold failedFunds balance at hcovered
  omega

def SessionLabel.completed? : SessionLabel → Option Nat
  | .complete sequence => some sequence
  | _ => none

def countedSequences (events : List SessionEvent) : List Nat :=
  events.filterMap fun event => if raisesCompleted event then event.label.completed? else none

theorem count_countedSequences {events : List SessionEvent} {k : Nat} :
    (countedSequences events).count k = events.countP (countsCompleted k) := by
  rw [countedSequences, List.count_filterMap]
  apply List.countP_congr
  rintro ⟨label, before, after⟩ -
  by_cases hraises : after.completedCount = before.completedCount
  · simp [countsCompleted, raisesCompleted, hraises]
  · cases label <;> simp [countsCompleted, raisesCompleted, SessionLabel.completed?, hraises]

theorem length_countedSequences (h : Recorded j) :
    (countedSequences j.events).length = j.state.completedCount := by
  rw [countedSequences, List.length_filterMap_eq_countP, h.total]
  apply List.countP_congr
  intro event hmem
  by_cases hraises : raisesCompleted event = true
  · obtain ⟨k, hlabel⟩ := h.labels event hmem hraises
    simp [hraises, hlabel, SessionLabel.completed?]
  · simp [hraises]

theorem mem_completedSequences {s : State} {k : Nat} :
    k ∈ s.completedSequences ↔ s.statusAt k = some .completed := by
  rw [State.statusAt_eq_some_iff, State.completedSequences, List.mem_map]
  simp only [List.mem_filter, decide_eq_true_eq, and_assoc, and_comm]

theorem completedSequences_nodup {s : State} : s.completedSequences.Nodup :=
  List.Nodup.sublist (List.Sublist.map _ List.filter_sublist) s.sequences_nodup

theorem countedSequences_nodup (hfresh : Fresh start)
    (run : SessionRun settings allowed start pool) :
    (countedSequences pool.shared.events).Nodup := by
  rw [List.nodup_iff_count_le_one]
  intro k
  have hle := countsCompleted_le run k
  rw [(recorded_run hfresh run).completed k] at hle
  rw [count_countedSequences]
  split at hle <;> omega

theorem countedSequences_subset (hfresh : Fresh start)
    (run : SessionRun settings allowed start pool) :
    countedSequences pool.shared.events ⊆ pool.shared.state.completedSequences := by
  intro k hmem
  have hle := countsCompleted_le run k
  have hcount := List.count_pos_iff.mpr hmem
  rw [count_countedSequences] at hcount
  rw [(recorded_run hfresh run).completed k] at hle
  rw [mem_completedSequences]
  by_contra hstatus
  rw [if_neg hstatus] at hle
  omega

end Runs

/-! Two chunks. The first is completed, but the lease is lost before it is counted, and completed
again. The second fails twice, with a mark in between. -/

def sampleRecorded (sequence : Nat) : Chunk :=
  { chunkId := "c", sequenceNumber := sequence, updatedAt := 0 }

def sampleSession : State where
  conversation := some { }
  chunks := [sampleRecorded 0, sampleRecorded 1]
  windows := []

theorem sampleSession_fresh : Fresh sampleSession := ⟨by decide, by simp [sampleSession]⟩

def sampleLost : LeaseObject where
  lease :=
    { logicalKey := "stt.requested|c1:0"
      owner := "worker"
      token := "1"
      messageId := "1-0"
      eventId := "e1"
      eventType := "stt.requested"
      retryCount := 0 }
  lost := true

def sampleCompletion (counting : Option LeaseObject) : SessionTask :=
  .complete { sequence := 0, rawText := "hello", counting := { object := counting }, now := 1 }

def sampleFailure : SessionTask := .fail { sequence := 1, error := "timeout", now := 1 }

def sampleTasks (counting : Option LeaseObject) (marks : List SessionTask) : List SessionTask :=
  [sampleCompletion counting, sampleCompletion none, sampleFailure] ++ marks ++ [sampleFailure]

def sampleTurns (marks : Nat) : List Nat :=
  [0, 0, 1, 2, 2, 2] ++ List.replicate marks 3 ++ List.replicate 3 (3 + marks)

def sampleCounted : Pool SessionCommands Unit SessionJournal :=
  sessionAfter { } sampleSession (sampleTasks none []) (sampleTurns 0)

def sampleMiscounted : Pool SessionCommands Unit SessionJournal :=
  sessionAfter { } sampleSession (sampleTasks (some sampleLost) [.mark 1 1]) (sampleTurns 1)

end AiBuddy.Conversation.Session
