import AiBuddy.Conversation.Proofs.Drain

/-!
# Calls of finalize that make a conversation ready

No call publishes more events for the processing than it has made changes into
READY_FOR_PROCESSING. A conversation that is ready without an event has a call that has not come
back, and the next scan that finds it publishes one.
-/

namespace AiBuddy.Conversation.Session

open Program Queue.JobLease Queue.MongoFence

inductive Stage where
  | idle
  | working (call : Nat)
  /-- It has made the conversation ready and is going to publish. -/
  | owing (call : Nat)
  | done (call : Nat)

namespace Stage

def call? : Stage → Option Nat
  | idle => none
  | working number | owing number | done number => some number

def credit : Stage → Nat
  | owing _ => 1
  | _ => 0

def fits (change : ReadyChange) : Stage → Prop
  | working _ => False
  | done _ => change.published = true
  | _ => True

end Stage

def Known (change : ReadyChange) (stage : Stage) : Prop :=
  stage.call? = some change.call → stage.fits change

structure Balanced (stages : List Stage) (s : ReadyState) : Prop where
  balance : s.published + (stages.map Stage.credit).sum ≤ s.changes + s.rewrites
  distinct : (stages.filterMap Stage.call?).Nodup
  bound : ∀ call ∈ stages.filterMap Stage.call?, call ≤ s.calls
  ready : s.session.status? = some .readyForProcessing → s.latest.isSome = true
  latest : ∀ change, s.latest = some change → change.call ≤ s.calls ∧
    (change.returned = true → change.published = true) ∧ ∀ stage ∈ stages, Known change stage

namespace Balanced

variable {stages stages' others : List Stage} {number : Nat} {rewrites : Bool} {s : ReadyState}
  {session : State}

theorem perm (hperm : stages.Perm stages') (h : Balanced stages s) : Balanced stages' s where
  balance := by
    rw [← (hperm.map Stage.credit).sum_nat]
    exact h.balance
  distinct := (hperm.filterMap Stage.call?).nodup_iff.mp h.distinct
  bound call hmem := h.bound call ((hperm.filterMap Stage.call?).mem_iff.mpr hmem)
  ready := h.ready
  latest change hchange := by
    obtain ⟨hcall, hreturned, hknown⟩ := h.latest change hchange
    exact ⟨hcall, hreturned, fun stage hmem => hknown stage (hperm.mem_iff.mpr hmem)⟩

theorem elsewhere (h : Balanced stages s)
    (hstatus : session.status? = some .readyForProcessing →
      s.session.status? = some .readyForProcessing) :
    Balanced stages { s with session := session } where
  balance := h.balance
  distinct := h.distinct
  bound := h.bound
  ready hready := h.ready (hstatus hready)
  latest := h.latest

theorem kept (h : Balanced stages s)
    (hstatus : session.status? = some .readyForProcessing →
      s.session.status? = some .readyForProcessing) :
    Balanced stages (s.reached number rewrites session) := by
  rw [ReadyState.reached, if_neg fun hboth => hboth.2 (hstatus hboth.1)]
  refine ⟨?_, h.distinct, h.bound, (h.elsewhere hstatus).ready, h.latest⟩
  exact h.balance.trans (Nat.add_le_add_left (Nat.le_add_right _ _) _)

theorem rewritten (h : Balanced (.working number :: others) s)
    (hbefore : s.session.status? = some .readyForProcessing) :
    Balanced (.owing number :: others) (s.reached number true session) := by
  rw [ReadyState.reached, if_neg fun hboth => hboth.2 hbefore]
  refine ⟨?_, h.distinct, h.bound, fun _ => h.ready hbefore, fun change hchange => ?_⟩
  · have hbalance := h.balance
    simp only [List.map_cons, List.sum_cons, Stage.credit, Bool.toNat_true] at hbalance ⊢
    omega
  · obtain ⟨hcall, hreturned, hknown⟩ := h.latest change hchange
    refine ⟨hcall, hreturned, List.forall_mem_cons.mpr ⟨fun _ => trivial, ?_⟩⟩
    exact fun stage hmem => hknown stage (List.mem_cons_of_mem _ hmem)

theorem idle (h : Balanced stages s) : Balanced (.idle :: stages) s where
  balance := by simpa [Stage.credit] using h.balance
  distinct := h.distinct
  bound := h.bound
  ready := h.ready
  latest change hchange := by
    obtain ⟨hcall, hreturned, hknown⟩ := h.latest change hchange
    exact ⟨hcall, hreturned, List.forall_mem_cons.mpr ⟨nofun, hknown⟩⟩

theorem begun (h : Balanced (.idle :: others) s) :
    Balanced (.working (s.calls + 1) :: others) { s with calls := s.calls + 1 } where
  balance := h.balance
  distinct := by
    refine List.nodup_cons.mpr ⟨fun hmem => ?_, h.distinct⟩
    exact absurd (h.bound _ hmem) (by omega)
  bound := by
    refine List.forall_mem_cons.mpr ⟨le_rfl, fun call hmem => ?_⟩
    exact (h.bound call hmem).trans (Nat.le_succ _)
  ready := h.ready
  latest change hchange := by
    obtain ⟨hcall, hreturned, hknown⟩ := h.latest change hchange
    refine ⟨hcall.trans (Nat.le_succ _), hreturned, List.forall_mem_cons.mpr ⟨fun hsame => ?_, ?_⟩⟩
    · have hnumber : s.calls + 1 = change.call := Option.some.inj hsame
      omega
    · exact fun stage hmem => hknown stage (List.mem_cons_of_mem _ hmem)

theorem others_ne (h : Balanced (.working number :: others) s) {stage : Stage}
    (hmem : stage ∈ others) : stage.call? ≠ some number := fun hsame =>
  (List.nodup_cons.mp h.distinct).1 (List.mem_filterMap.mpr ⟨stage, hmem, hsame⟩)

theorem changed (h : Balanced (.working number :: others) s)
    (hbefore : s.session.status? ≠ some .readyForProcessing)
    (hafter : session.status? = some .readyForProcessing) :
    Balanced (.owing number :: others) (s.reached number rewrites session) := by
  rw [ReadyState.reached, if_pos ⟨hafter, hbefore⟩]
  refine ⟨?_, h.distinct, h.bound, fun _ => rfl, ?_⟩
  · have hbalance := h.balance
    simp only [List.map_cons, List.sum_cons, Stage.credit] at hbalance ⊢
    omega
  · rintro change hchange
    obtain rfl := Option.some.inj hchange
    refine ⟨h.bound number List.mem_cons_self, nofun, ?_⟩
    refine List.forall_mem_cons.mpr ⟨fun _ => trivial, ?_⟩
    exact fun stage hmem hsame => absurd hsame (h.others_ne hmem)

theorem told (h : Balanced stages s) : Balanced stages s.told where
  balance := h.balance
  distinct := h.distinct
  bound := h.bound
  ready hready := by simpa [ReadyState.told] using h.ready hready
  latest change hchange := by
    obtain ⟨before, hbefore, rfl⟩ := Option.map_eq_some_iff.mp hchange
    obtain ⟨hcall, -, hknown⟩ := h.latest before hbefore
    refine ⟨hcall, fun _ => rfl, fun stage hmem hsame => ?_⟩
    have hfits := hknown stage hmem hsame
    cases stage with
    | working number => exact hfits
    | _ => trivial

theorem emitted (h : Balanced (.owing number :: others) s) :
    Balanced (.done number :: others) (s.emitted processingRequested) := by
  rw [ReadyState.emitted, if_pos rfl]
  refine ⟨?_, h.distinct, h.bound, h.told.ready, fun change hchange => ?_⟩
  · have hbalance := h.balance
    simp only [List.map_cons, List.sum_cons, Stage.credit] at hbalance ⊢
    show s.published + 1 + _ ≤ s.changes + s.rewrites
    omega
  · obtain ⟨hcall, hreturned, hknown⟩ := h.told.latest change hchange
    refine ⟨hcall, hreturned, List.forall_mem_cons.mpr ⟨fun _ => ?_, ?_⟩⟩
    · obtain ⟨before, -, rfl⟩ := Option.map_eq_some_iff.mp hchange
      rfl
    · exact fun stage hmem => hknown stage (List.mem_cons_of_mem _ hmem)

theorem ended {stage : Stage} (h : Balanced (stage :: others) s) (hcall : stage.call? = some number)
    (hstage : stage = .working number ∨ stage = .done number) :
    Balanced (stage :: others) (s.ended number) where
  balance := h.balance
  distinct := h.distinct
  bound := h.bound
  ready hready := by simpa [ReadyState.ended] using h.ready hready
  latest change hchange := by
    obtain ⟨before, hbefore, rfl⟩ := Option.map_eq_some_iff.mp hchange
    obtain ⟨hbound, hreturned, hknown⟩ := h.latest before hbefore
    by_cases hsame : before.call = number
    · rw [if_pos hsame]
      have hfits := hknown stage List.mem_cons_self (hcall.trans (congrArg some hsame.symm))
      have hpublished : before.published = true := by
        rcases hstage with rfl | rfl
        · exact absurd hfits id
        · exact hfits
      refine ⟨hbound, fun _ => hpublished, fun stage hmem hmine => ?_⟩
      have hkeep := hknown stage hmem hmine
      cases stage with
      | working number => exact hkeep
      | _ => trivial
    · rw [if_neg hsame]
      exact ⟨hbound, hreturned, hknown⟩

end Balanced

abbrev calling (number : Nat) : Semantics (Remote Mongo.Error Command) ReadyState :=
  fun command => readies (toReady number command)

abbrev StaysUnready {β : Type} (command : Remote Mongo.Error Command β) : Prop :=
  FinalizeCommand False command

variable {α β : Type} {change : ConversationDocument → ConversationDocument}

variable {holding : Holding} {now : Int} {request : FinalizeCall} {settings : Settings}

section Calls

variable {others : List Stage} {stage : Stage} {number : Nat} {s s' : ReadyState}

theorem Balanced.performed {command : Command α} {reply : Except Mongo.Error α} {rewrites : Bool}
    {session : State} (h : Balanced (stage :: others) s)
    (hcommand : FinalizeCommand False (.send command))
    (hperformed : Performed command s.session reply session) :
    Balanced (stage :: others) (s.reached number rewrites session) := by
  have hmove : Move FinalizeChunk (FinalizeConversation False) (fun _ _ => True) s.session
    session :=
    move_of_performed hcommand.1 trivial hperformed
  exact h.kept fun hready => (hmove.ready hready).resolve_right id

theorem Balanced.unready {command : Remote Mongo.Error Command β} {reply : β}
    (h : Balanced (stage :: others) s) (hcommand : StaysUnready command)
    (hstep : calling number command s reply s') : Balanced (stage :: others) s' := by
  rcases command with ⟨command⟩
  cases command with
  | emit name =>
    have hname : name ≠ processingRequested := hcommand.2 id
    have hsame : s.emitted name = s := if_neg hname
    rcases hstep with ⟨-, rfl⟩ | ⟨error, -, rfl | rfl⟩
    · rwa [hsame]
    · exact h
    · rwa [hsame]
  | _ =>
    obtain ⟨session, hperformed, rfl⟩ := hstep
    exact h.performed hcommand hperformed

theorem holds_unready {prog : Operating α} {post : Except StatusError α → Stage → Prop}
    (hissues : prog.run.Issues StaysUnready) (hpost : ∀ outcome, post outcome stage) :
    Holds (calling number) Balanced post stage prog.run := by
  refine hissues.holds ?_ hpost
  intro β command others s reply s' hcommand hbalanced hstep
  exact hbalanced.unready hcommand hstep

def OfWrite (error : StatusError) : Prop := ∃ write, error = .write write

def readPost (number : Nat) {α : Type} : Except StatusError α → Stage → Prop
  | .ok _, stage => stage = .working number
  | .error error, _ => OfWrite error

theorem holds_sent {command : Command α} (h : StaysUnready (.send command)) :
    Holds (calling number) Balanced (readPost number) (.working number) (sent command).run := by
  refine Holds.send fun others s reply s' hbalanced hstep => ?_
  refine ⟨.working number, hbalanced.unready h hstep, ?_⟩
  rcases reply with error | value
  · exact ⟨_, rfl⟩
  · rfl

def changedPost (number : Nat) {α : Type} : Except StatusError (Option α) → Stage → Prop
  | .ok (some _), stage => stage = .owing number
  | .ok none, stage => stage = .working number
  | .error error, _ => OfWrite error

theorem updateConversation_cases (s : State) (accepts : ConversationDocument → Bool)
    (token : Option Int)
    (hchange : ∀ conversation, (change conversation).status = .readyForProcessing) :
    (∃ found, (s.updateConversation accepts change token).1 = some found ∧
        (s.updateConversation accepts change token).2.status? = some .readyForProcessing) ∨
      ((s.updateConversation accepts change token).1 = none ∧
        (s.updateConversation accepts change token).2 = s) := by
  unfold State.updateConversation
  split
  · split
    · exact .inl ⟨_, rfl, congrArg some (hchange _)⟩
    · exact .inr ⟨rfl, rfl⟩
  · exact .inr ⟨rfl, rfl⟩

theorem Balanced.update {accepts : ConversationDocument → Bool} {token : Option Int}
    {reply : Except Mongo.Error (Option ConversationDocument)}
    (h : Balanced (.working number :: others) s)
    (hchange : ∀ conversation, (change conversation).status = .readyForProcessing)
    (hstep : calling number (.send (.updateConversation accepts change token)) s reply s') :
    ∃ stage, Balanced (stage :: others) s' ∧
      changedPost number (reply.mapError (.write ∘ .mongo)) stage := by
  obtain ⟨session, ⟨choice, hanswers⟩, rfl⟩ := hstep
  have hran := updateConversation_cases s.session accepts token hchange
  by_cases hbefore : s.session.status? = some .readyForProcessing
  · -- No call makes it ready: where the update is answered, it is written again.
    have hkept : ∀ {rewrites : Bool} {session : State},
        Balanced (.working number :: others) (s.reached number rewrites session) :=
      h.kept fun _ => hbefore
    rcases reply with error | (_ | found)
    · exact ⟨_, hkept, _, rfl⟩
    · exact ⟨_, hkept, rfl⟩
    · refine ⟨.owing number, ?_, rfl⟩
      have hrewrites : rewritesReady (.updateConversation accepts change token) s.session
          (.ok (some found)) = true := by simp [rewritesReady, hchange, hbefore]
      rw [hrewrites]
      exact h.rewritten hbefore
  · have hunchanged : ∀ {rewrites : Bool},
        Balanced (.working number :: others) (s.reached number rewrites s.session) :=
      h.kept id
    cases hanswers with
    | answered =>
      rcases hran with ⟨found, hfound, hready⟩ | ⟨hnone, hsession⟩
      · refine ⟨.owing number, h.changed hbefore hready, ?_⟩
        simp only [State.run, hfound]
        rfl
      · refine ⟨.working number, ?_, ?_⟩
        · simp only [State.run, hsession]
          exact hunchanged
        · simp only [State.run, hnone]
          rfl
    | unsent => exact ⟨.working number, hunchanged, _, rfl⟩
    | unheard =>
      rcases hran with ⟨found, -, hready⟩ | ⟨-, hsession⟩
      · exact ⟨.owing number, h.changed hbefore hready, _, rfl⟩
      · refine ⟨.working number, ?_, _, rfl⟩
        simp only [State.run, hsession]
        exact hunchanged

theorem holds_update {accepts : ConversationDocument → Bool}
    (hchange : ∀ conversation, (change conversation).status = .readyForProcessing) :
    Holds (calling number) Balanced (changedPost number) (.working number)
      (holding.updateConversation accepts change).run := by
  unfold Holding.updateConversation Holding.fenced
  split
  · exact ⟨_, rfl⟩
  · exact Holds.send fun others s reply s' hbalanced hstep => hbalanced.update hchange hstep
  · next token _ =>
    refine Holds.raising_then (changedPost number)
      (Holds.send fun others s reply s' hbalanced hstep => hbalanced.update hchange hstep) ?_
      fun _ _ herror => herror
    rintro (_ | found) stage hstage
    · obtain rfl : stage = .working number := hstage
      refine Holds.raising_then _ (holds_sent ⟨trivial, fun _ => trivial⟩) ?_ fun _ _ herror =>
        herror
      rintro existing stage rfl
      split
      · exact ⟨_, rfl⟩
      · exact rfl
    · exact hstage

def transitionPost (number : Nat) {α : Type} : Except StatusError α → Stage → Prop
  | .ok _, stage => stage = .owing number
  | .error (.valueError _), stage => stage = .working number
  | .error _, _ => True

theorem transitionPost_write {error : StatusError} (h : OfWrite error) {stage : Stage} :
    transitionPost number (.error error : Except StatusError α) stage := by
  obtain ⟨write, rfl⟩ := h
  trivial

theorem holds_guardLease :
    Holds (calling number) Balanced (readPost number) (.working number) holding.guardLease.run := by
  show readPost number (holding.guard.mapError .write) _
  rcases holding.guard with write | value
  · exact ⟨write, rfl⟩
  · exact rfl

theorem holds_transition {updates : ConversationDocument → ConversationDocument} :
    Holds (calling number) Balanced (transitionPost number) (.working number)
      (transition holding .readyForProcessing updates now).run := by
  refine Holds.raising_then _ holds_guardLease ?_ fun error stage herror =>
    transitionPost_write herror
  rintro - stage rfl
  refine Holds.raising_then _ (holds_sent ⟨trivial, fun _ => trivial⟩) ?_ fun error stage herror =>
    transitionPost_write herror
  rintro (_ | current) stage rfl
  · exact rfl
  · dsimp only
    split
    · refine Holds.raising_then _ (holds_update fun _ => rfl) ?_ fun error stage herror =>
        transitionPost_write herror
      rintro (_ | saved) stage hstage
      · exact hstage
      · exact hstage
    · exact rfl

def readyPost (number : Nat) : Except StatusError Bool → Stage → Prop
  | .ok true, stage => stage = .owing number
  | .ok false, stage => stage = .working number
  | .error _, _ => True

theorem holds_safeTransition {updates : ConversationDocument → ConversationDocument} :
    Holds (calling number) Balanced (readyPost number) (.working number)
      (safeTransition holding .readyForProcessing updates now).run := by
  refine Holds.raising_then _ (holds_sent ⟨trivial, fun _ => trivial⟩) ?_ fun _ _ _ => trivial
  rintro (_ | current) stage rfl
  · exact rfl
  · dsimp only
    split
    · exact rfl
    · next hterminal =>
      rw [if_neg fun hready : current.status = .readyForProcessing =>
        hterminal (hready ▸ List.mem_cons_self)]
      refine Holds.attempt_then holds_transition ?_
      rintro (error | saved) stage hstage
      · cases error with
        | valueError message => exact hstage
        | write error => exact trivial
        | validationError => exact trivial
      · exact hstage

def settledPost (number : Nat) : Except StatusError Unit → Stage → Prop
  | .ok (), stage => stage = .working number ∨ stage = .done number
  | .error _, _ => True

theorem holds_before {prog : Operating α} {f : α → Operating β}
    {post : Except StatusError β → Stage → Prop} (hissues : prog.run.Issues StaysUnready)
    (hnext : ∀ value, Holds (calling number) Balanced post (.working number) (f value).run)
    (herror : ∀ error stage, post (.error error) stage) :
    Holds (calling number) Balanced post (.working number) (prog >>= f).run := by
  refine Holds.raising_then (fun _ stage => stage = .working number)
    (holds_unready hissues fun _ => rfl) ?_ fun error stage _ => herror error stage
  rintro value stage rfl
  exact hnext value

theorem holds_publishReady {accounting : Accounting} :
    Holds (calling number) Balanced (settledPost number) (.working number)
      (publishReady request accounting).run := by
  unfold publishReady
  split
  · exact holds_before (issues_safeTransition _ _ keepsStatus_id nofun)
      (fun _ => .inl rfl) fun _ _ => trivial
  · have haccounting : Silent (.send (.emit "pre_finalization_accounting")) := by
      change "pre_finalization_accounting" ≠ processingRequested
      decide
    refine Holds.raising_then _ (holds_sent ⟨trivial, fun _ => haccounting⟩) ?_ fun _ _ _ => trivial
    rintro - stage rfl
    refine Holds.raising_then _ holds_safeTransition ?_ fun _ _ _ => trivial
    rintro (_ | _) stage hstage
    · exact .inl hstage
    · obtain rfl : stage = .owing number := hstage
      refine Holds.send fun others s reply s' hbalanced hstep => ?_
      rcases hstep with ⟨rfl, rfl⟩ | ⟨error, rfl, rfl | rfl⟩
      · exact ⟨.done number, hbalanced.emitted, .inr rfl⟩
      · exact ⟨.owing number, hbalanced, trivial⟩
      · exact ⟨.done number, hbalanced.emitted, trivial⟩

theorem holds_settleWindows {drained : Drained} {unwindowed : Nat} :
    Holds (calling number) Balanced (settledPost number) (.working number)
      (settleWindows settings request drained unwindowed).run := by
  have herror : ∀ error stage, settledPost number (.error error) stage := fun _ _ => trivial
  have hfinalizing : ∀ updates, KeepsStatus updates →
      Holds (calling number) Balanced (settledPost number) (.working number)
        (do let _ ← safeTransition request.transition .finalizing updates request.now
            return () : Operating Unit).run := fun updates hupdates =>
    holds_before (issues_safeTransition _ _ hupdates nofun)
      (fun _ => .inl rfl) herror
  refine holds_before (Issues.send ⟨trivial, fun _ => trivial⟩) (fun _ => ?_) herror
  refine holds_before
    (Issues.raising_bind (Issues.send ⟨trivial, fun _ => trivial⟩) fun _ =>
      issues_reclaimWindows _ _ _)
    (fun _ => ?_) herror
  refine holds_before (Issues.send ⟨trivial, fun _ => trivial⟩) (fun windows => ?_) herror
  refine holds_before (issues_publishWindows _ _) (fun _ => ?_) herror
  refine holds_before (Issues.send ⟨trivial, fun _ => trivial⟩) (fun chunks => ?_) herror
  refine holds_before (issues_persistAccounting _) (fun _ => ?_) herror
  split
  · split
    · exact hfinalizing _ (keepsStatus_setMissing _)
    · exact .inl rfl
  · split
    · refine holds_before (issues_recoverWindows _ _)
        (fun _ => ?_) herror
      exact hfinalizing _ keepsStatus_id
    · exact holds_publishReady

theorem holds_finalize :
    Holds (calling number) Balanced (settledPost number) (.working number)
      (finalize settings request).run := by
  refine holds_before (issues_drain settings request) ?_
    fun _ _ => trivial
  rintro (_ | drained)
  · exact .inl rfl
  · show Holds _ _ _ _ (settle settings request drained).run
    unfold settle
    split
    · refine holds_before (Issues.raising_bind (Issues.send ⟨trivial, fun _ => trivial⟩) fun _ =>
        trivial) (fun unwindowed => ?_)
        fun _ _ => trivial
      exact holds_settleWindows
    · exact holds_publishReady

theorem holds_finalizeCall :
    Holds readies Balanced (fun _ _ => True) .idle (finalizeCall settings request) := by
  refine Holds.issue_bind ?_
  rintro others s call s' hbalanced ⟨rfl, rfl⟩
  refine ⟨.working (s.calls + 1), hbalanced.begun, ?_⟩
  refine Holds.then (Holds.hoist holds_finalize) ?_
  rintro (error | ⟨⟩) stage hsettled
  · trivial
  · refine Holds.issue_bind ?_
    rintro others s - s' hbalanced rfl
    refine ⟨stage, hbalanced.ended ?_ hsettled, trivial⟩
    rcases hsettled with rfl | rfl <;> rfl

theorem holds_scanned {command : ReadyCommand (Except Mongo.Error α)}
    (h : ∀ others s reply s', Balanced (.idle :: others) s → readies command s reply s' →
      Balanced (.idle :: others) s') :
    Holds readies Balanced (fun _ stage => stage = .idle) .idle (scanned command).run := by
  refine Holds.issue_bind fun others s reply s' hbalanced hstep => ?_
  exact ⟨.idle, h others s reply s' hbalanced hstep, rfl⟩

theorem holds_republish {name : String} :
    Holds readies Balanced (fun _ stage => stage = .idle) .idle
      (scanned (.republish name)).run := by
  refine holds_scanned fun others s reply s' hbalanced hstep => ?_
  have hrepublished : Balanced (.idle :: others) (s.republished name) := by
    unfold ReadyState.republished
    split
    · exact hbalanced.told
    · exact hbalanced
  rcases hstep with ⟨-, rfl⟩ | ⟨error, -, rfl | rfl⟩
  · exact hrepublished
  · exact hbalanced
  · exact hrepublished

theorem holds_scanStale {idleMs : Nat} :
    Holds readies Balanced (fun _ _ => True) .idle (scanStale idleMs now).run := by
  refine Holds.raising_then _ (holds_scanned fun others s reply s' hbalanced hstep => ?_) ?_
    fun _ _ _ => trivial
  · rw [hstep.1]
    exact hbalanced
  · rintro (_ | conversation) stage rfl
    · trivial
    · dsimp only
      split
      · exact (holds_republish).mono fun _ _ _ => trivial
      · exact (holds_republish).mono fun _ _ _ => trivial

end Calls

theorem Unready.balanced {s : ReadyState} (h : Unready s) : Balanced [] s where
  balance := by
    rw [h.published, h.changes, h.rewrites]
    exact le_rfl
  distinct := List.nodup_nil
  bound := nofun
  ready hready := absurd hready h.status
  latest change hchange := by
    rw [h.latest] at hchange
    cases hchange

theorem ReadyRun.balanced {start : ReadyState} {pool : ReadyPool} (hstart : Unready start)
    (hrun : ReadyRun settings start pool) : pool.Held readies Balanced := by
  refine Pool.Run.held (fun _ _ _ => Balanced.perm) ?_ ?_ hstart.balanced hrun
  · rintro stages s prog hbalanced (⟨request, rfl⟩ | ⟨idleMs, now, rfl⟩)
    · exact ⟨.idle, holds_finalizeCall, hbalanced.idle⟩
    · exact ⟨.idle, holds_scanStale, hbalanced.idle⟩
  · rintro stages s s' hbalanced ⟨session, rfl, hstatus⟩
    exact hbalanced.elsewhere hstatus

theorem scanStale_publishes {idleMs : Nat} {s : ReadyState}
    (hlatest : s.session.status? = some .readyForProcessing → s.latest.isSome = true)
    (hstale : s.staleReady (staleCutoff idleMs now) = true) :
    ((scanStale idleMs now).run.eval readyAnswer s).2.stranded = false := by
  cases hconversation : s.session.conversation with
  | none =>
    rw [ReadyState.staleReady, hconversation] at hstale
    cases hstale
  | some conversation =>
    rw [ReadyState.staleReady, hconversation, Option.any_some, Bool.and_eq_true,
      decide_eq_true_eq] at hstale
    obtain ⟨hready, hfound⟩ := hstale
    have hsome := hlatest (by rw [State.status?, hconversation, Option.map_some, hready])
    obtain ⟨change, hchange⟩ := Option.isSome_iff_exists.mp hsome
    have hfind : s.session.conversation.filter
        (ConversationDocument.stale (staleCutoff idleMs now)) = some conversation := by
      rw [hconversation, Option.filter_some, if_pos hfound]
    have heval : ((scanStale idleMs now).run.eval readyAnswer s).2 = s.told := by
      have hread : (scanned (.findStale (staleCutoff idleMs now))).run.eval readyAnswer s =
          (.ok (some conversation), s) := congrArg (fun found => (Except.ok found, s)) hfind
      have hpublish : (if conversation.status = .readyForProcessing then
          scanned (.republish processingRequested)
        else scanned (.republish "conversation.finalization.requested")) =
          scanned (.republish processingRequested) := if_pos hready
      rw [scanStale, eval_bind_ok hread]
      dsimp only
      rw [hpublish]
      rfl
    rw [heval]
    simp [ReadyState.stranded, ReadyState.told, hchange]

/-- In any run, calls of `finalize` publish no more events for the processing than they have made
changes into READY_FOR_PROCESSING, as long as none sets it where it is set. While the conversation
is ready, an event has been published since or the call that has made it ready has not returned
normally, and the next scan that finds it stale publishes one. -/
theorem ready_published {settings : Settings} {start : ReadyState} {pool : ReadyPool}
    (hstart : Unready start) (hrun : ReadyRun settings start pool) :
    (pool.shared.rewrites = 0 → pool.shared.published ≤ pool.shared.changes) ∧
      (pool.shared.changerReturned = true → pool.shared.stranded = false) ∧
      ∀ idleMs now, pool.shared.staleReady (staleCutoff idleMs now) = true →
        ((scanStale idleMs now).run.eval readyAnswer pool.shared).2.stranded = false := by
  obtain ⟨stages, -, hbalanced⟩ := ReadyRun.balanced hstart hrun
  refine ⟨fun hrewrites => ?_, fun hreturned => ?_, fun idleMs now hstale => ?_⟩
  · have hbalance := hbalanced.balance
    omega
  · cases hchange : pool.shared.latest with
    | none =>
      rw [ReadyState.changerReturned, hchange] at hreturned
      cases hreturned
    | some change =>
      rw [ReadyState.changerReturned, hchange] at hreturned
      have hpublished := (hbalanced.latest change hchange).2.1 hreturned
      simp [ReadyState.stranded, hchange, hpublished]
  · exact scanStale_publishes hbalanced.ready hstale

def sampleUnready : ReadyState where
  session :=
    { conversation := some { status := .finalizing, expectedLastSequence := some 0 }
      chunks := [{ chunkId := "c", sequenceNumber := 0, sttStatus := .completed, updatedAt := 0 }]
      windows := []
      increasing := sampleStopped.increasing
      ordered := sampleSession.ordered }

theorem sampleUnready_unready : Unready sampleUnready := ⟨by decide, rfl, rfl, rfl, rfl⟩

def sampleFinalizeCall : Program ReadyCommand (Except StatusError Unit) :=
  finalizeCall { } sampleFinalize

theorem readyAnswer_readies (command : ReadyCommand β) (s : ReadyState) :
    readies command s (readyAnswer command s).1 (readyAnswer command s).2 := by
  cases command with
  | begin => exact ⟨rfl, rfl⟩
  | session number command =>
    cases command with
    | emit name => exact .inl ⟨rfl, rfl⟩
    | _ => exact ⟨_, ⟨0, .answered⟩, rfl⟩
  | ended number => exact rfl
  | findStale before =>
    refine ⟨rfl, fun conversation hreply => ?_⟩
    exact Option.filter_eq_some_iff.mp (Except.ok.inj hreply)
  | republish name => exact .inl ⟨rfl, rfl⟩

def afterCall (order : List Nat) (pool : ReadyPool) : ReadyPool :=
  (⟨sampleFinalizeCall :: pool.threads, pool.shared⟩ : ReadyPool).turns readyAnswer order

theorem readyRun_afterCall {start : ReadyState} {pool : ReadyPool} {order : List Nat}
    (hrun : ReadyRun { } start pool) : ReadyRun { } start (afterCall order pool) := by
  have hbegun : ReadyRun { } start ⟨sampleFinalizeCall :: pool.threads, pool.shared⟩ :=
    hrun.tail (.spawn (.inl ⟨sampleFinalize, rfl⟩))
  exact hbegun.trans (Pool.turns_reach readyAnswer_readies order _)

def samplePublished : ReadyPool := afterCall (List.replicate 22 0) ⟨[], sampleUnready⟩

theorem ready_published_sample :
    samplePublished.shared.changes = 1 ∧
      samplePublished.shared.published ≤ samplePublished.shared.changes ∧
      samplePublished.shared.stranded = false := by
  have hrun : ReadyRun { } sampleUnready samplePublished := readyRun_afterCall .refl
  obtain ⟨hatMost, htold, -⟩ := ready_published sampleUnready_unready hrun
  exact ⟨by decide +kernel, hatMost (by decide +kernel), htold (by decide +kernel)⟩

def samplePublishedTwice : ReadyPool :=
  afterCall (List.replicate 17 0 ++ List.replicate 22 1 ++ List.replicate 5 0)
    (afterCall [] ⟨[], sampleUnready⟩)

def sampleStranded : ReadyPool :=
  afterCall (List.replicate 5 0) (afterCall (List.replicate 19 0) ⟨[], sampleUnready⟩)

def returnsOk {β : Type} : Program ReadyCommand (Except StatusError β) → Bool
  | .ret (.ok _) => true
  | _ => false

/-- Two calls publish two events for one change, and a call returns normally while the
conversation is ready without an event. -/
theorem published_twice_and_stranded :
    (ReadyRun { } sampleUnready samplePublishedTwice ∧
        ¬ samplePublishedTwice.shared.published ≤ samplePublishedTwice.shared.changes) ∧
      ReadyRun { } sampleUnready sampleStranded ∧
        (sampleStranded.threads.map returnsOk = [true, false]) ∧
        sampleStranded.shared.stranded = true := by
  refine ⟨⟨readyRun_afterCall (readyRun_afterCall .refl), by decide +kernel⟩, ?_⟩
  exact ⟨readyRun_afterCall (readyRun_afterCall .refl), by decide +kernel, by decide +kernel⟩

end AiBuddy.Conversation.Session
