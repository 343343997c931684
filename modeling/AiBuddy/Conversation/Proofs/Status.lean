import AiBuddy.Conversation.Status
import AiBuddy.Queue.MongoFence.Proofs.Writes

/-!
# The status of a conversation along every run

One lemma says what a command of either operation may do to a status. From it every
change is an edge of the table, COMPLETED is never left, and an update lands on the status
that the one before it has left.
-/

namespace AiBuddy.Conversation

open Mongo Program Queue.JobLease Queue.MongoFence

variable {target : ConversationStatus}

theorem edge_completed (h : Edge .completed target) : target = .completed := by
  rcases h with rfl | hmem
  · rfl
  · cases hmem

variable {current : ConversationStatus}

theorem edge_failed (h : current ≠ .completed) : Edge current .failed := by
  cases current with
  | completed => exact absurd rfl h
  | _ => decide

variable {doc : Document} {status : ConversationStatus}

theorem statusOf_eq_some (h : doc.get statusField = some (.str status.value)) :
    statusOf doc = some status := by
  rw [statusOf, h]
  exact ConversationStatus.ofValue?_value status

theorem ofValue?_eq_some {text : String} (h : ConversationStatus.ofValue? text = some status) :
    text = status.value := by
  unfold ConversationStatus.ofValue? at h
  split at h <;> cases h <;> rfl

theorem get_of_statusOf (h : statusOf doc = some status) :
    doc.get statusField = some (.str status.value) := by
  unfold statusOf at h
  split at h
  · next text htext => rw [htext, ofValue?_eq_some h]
  · cases h

def StatusCommand {β : Type} (command : Remote Mongo.Error Mongo.Command β) : Prop :=
  match command with
  | .send command =>
    ∀ filter update upsert, command.update? = some (filter, update, upsert) → upsert = false ∧
      ∃ target, update.set.get statusField = some (.str target.value) ∧
        ∀ doc current, filter.accepts doc = true → statusOf doc = some current →
          Edge current target

inductive StatusMove (s : Store) : Store → Prop where
  | nothing : StatusMove s s
  | updated {slot : Nat} {doc doc' : Document} {update : Update} {target : ConversationStatus} :
      s.collection.doc slot = some doc →
      (∀ current, statusOf doc = some current → Edge current target) →
      update.set.get statusField = some (.str target.value) →
      doc'.get statusField = some (.str target.value) →
      StatusMove s ⟨s.collection.replace slot doc', ⟨slot, some doc, update⟩ :: s.landed⟩

variable {s s' : Store}

theorem statusMove {β : Type} {command : Remote Mongo.Error Mongo.Command β}
    {collides : Document → Document → Bool} {reply : β} (hcommand : StatusCommand command)
    (h : Remote.semantics (fun command s reply s' => Mongo.Performed collides command s reply s')
      command s reply s') :
    StatusMove s s' := by
  cases command with
  | send command =>
    cases effect_of_performed (h : Mongo.Performed collides command s reply s') with
    | nothing => exact .nothing
    | updated hupdate hdoc haccepts =>
      obtain ⟨-, target, hset, hedge⟩ := hcommand _ _ _ hupdate
      exact .updated hdoc (fun current hcurrent => hedge _ current haccepts hcurrent) hset
        (Update.get_apply hset false _)
    | inserted hupdate =>
      obtain ⟨hfalse, -⟩ := hcommand _ _ _ hupdate
      cases hfalse

theorem updateDoc_status {request : TransitionCall} :
    request.updateDoc.get statusField = some (.str request.target.value) := by
  have hmerged : (Update.assign request.updates
      [(statusField, .str request.target.value), ("updatedAt", request.now)]).get statusField =
        some (.str request.target.value) := by
    rw [Update.get_assign, request.status_free]
    rfl
  have hprocessed : statusField ≠ "processedAt" := by decide
  unfold TransitionCall.updateDoc
  dsimp only
  split
  · split
    · exact hmerged
    · rw [Document.get_put, if_neg hprocessed]
      exact hmerged
  · exact hmerged

theorem statusField_ne_fenceField : statusField ≠ fenceField := by decide

variable {base : Filter}

theorem statusCommand_updateOne {update : Update}
    (hset : update.set.get statusField = some (.str target.value))
    (hedge : ∀ doc current, base.accepts doc = true → statusOf doc = some current →
      Edge current target) :
    StatusCommand (.send (.updateOne base update false)) ∧
      ∀ token, StatusCommand
        (.send (.updateOne (fencedFilter base token) (withFence update token) false)) := by
  refine ⟨?_, fun token => ?_⟩
  · rintro _ _ _ ⟨⟩
    exact ⟨rfl, target, hset, hedge⟩
  · rintro _ _ _ ⟨⟩
    refine ⟨rfl, target, (withFence_get statusField_ne_fenceField).trans hset, ?_⟩
    exact fun doc current haccepts => hedge doc current (accepts_fencedFilter haccepts)

theorem statusCommand_findOneAndUpdate {update : Update} {returnAfter : Bool}
    (hset : update.set.get statusField = some (.str target.value))
    (hedge : ∀ doc current, base.accepts doc = true → statusOf doc = some current →
      Edge current target) :
    StatusCommand (.send (.findOneAndUpdate base update false returnAfter)) ∧
      ∀ token, StatusCommand (.send
        (.findOneAndUpdate (fencedFilter base token) (withFence update token) false
          returnAfter)) := by
  refine ⟨?_, fun token => ?_⟩
  · rintro _ _ _ ⟨⟩
    exact ⟨rfl, target, hset, hedge⟩
  · rintro _ _ _ ⟨⟩
    refine ⟨rfl, target, (withFence_get statusField_ne_fenceField).trans hset, ?_⟩
    exact fun doc current haccepts => hedge doc current (accepts_fencedFilter haccepts)

theorem statusCommand_findOne (filter : Filter) : StatusCommand (.send (.findOne filter)) := nofun

theorem status_of_equals
    (h : Filter.accepts (base ++ [.equals statusField (.str current.value)]) doc = true)
    (hstatus : statusOf doc = some status) : status = current := by
  have hclause := (Filter.accepts_append h).2
  have hvalue : (doc.get statusField).getD .null = .str current.value := by
    simpa [Filter.accepts, Clause.equals] using hclause
  rw [get_of_statusOf hstatus, Option.getD_some, Value.str.injEq] at hvalue
  have hsame := ConversationStatus.ofValue?_value status
  rw [hvalue, ConversationStatus.ofValue?_value] at hsame
  exact (Option.some.inj hsame).symm

theorem status_of_notEquals {other : ConversationStatus}
    (h : Filter.accepts (base ++ [notEquals statusField (.str other.value)]) doc = true)
    (hstatus : statusOf doc = some status) : status ≠ other := by
  have hclause := (Filter.accepts_append h).2
  have hvalue : (doc.get statusField).getD .null ≠ .str other.value := by
    simpa [Filter.accepts, notEquals] using hclause
  rintro rfl
  apply hvalue
  rw [get_of_statusOf hstatus, Option.getD_some]

theorem issues_transition (request : TransitionCall) :
    (transition request).run.Issues StatusCommand := by
  refine Issues.raising_bind trivial fun _ => ?_
  refine Issues.raising_bind (Issues.send (statusCommand_findOne _)) fun found => ?_
  cases found with
  | none => trivial
  | some data =>
    dsimp only
    split
    · trivial
    · next current hcurrent =>
      unfold assertValidTransition
      by_cases hvalid : Edge current request.target
      · rw [if_pos hvalid]
        -- the filter names the status that was found, so the edge is from that status
        have hedge : ∀ doc status,
            Filter.accepts (idQuery request.conversationId ++
              [.equals statusField (.str current.value)]) doc = true →
            statusOf doc = some status → Edge status request.target := by
          intro doc status haccepts hstatus
          rw [status_of_equals haccepts hstatus]
          exact hvalid
        have hset : Document.get request.updateDoc statusField =
            some (.str request.target.value) := updateDoc_status
        refine Issues.raising_bind trivial fun _ => ?_
        refine Issues.raising_bind (Issues.bind (issues_fencedFindOneAndUpdate
          statusCommand_findOne
          (fun _ => (statusCommand_findOneAndUpdate hset hedge).1)
          (fun token _ => (statusCommand_findOneAndUpdate hset hedge).2 token) nofun)
          fun _ => trivial) fun result => ?_
        cases result with
        | none => trivial
        | some saved =>
          dsimp only
          split <;> trivial
      · rw [if_neg hvalid]
        trivial

theorem issues_markConversationFailed {request : FailureCall} :
    (markConversationFailed request).run.Issues StatusCommand := by
  have hedge : ∀ doc status,
      Filter.accepts (idQuery request.conversationId ++
        [notEquals statusField (.str ConversationStatus.completed.value)]) doc = true →
      statusOf doc = some status → Edge status .failed := by
    intro doc status haccepts hstatus
    exact edge_failed (status_of_notEquals haccepts hstatus)
  refine Issues.raising_bind trivial fun _ => ?_
  refine Issues.bind (issues_fencedUpdateOne statusCommand_findOne ?_ ?_ nofun) fun _ => trivial
  · exact fun _ => (statusCommand_updateOne rfl hedge).1
  · exact fun token _ => (statusCommand_updateOne rfl hedge).2 token

theorem issues_statusCall {statusCall : StatusCall} : statusCall.program.Issues StatusCommand := by
  cases statusCall with
  | transition request => exact Issues.bind (issues_transition request) fun _ => trivial
  | failure request => exact Issues.bind issues_markConversationFailed fun _ => trivial

def lastStatus (slot : Nat) : List Landed → Option Value
  | [] => none
  | landed :: older =>
    if landed.slot = slot then landed.update.set.get statusField else lastStatus slot older

inductive Chained : List Landed → Prop where
  | nil : Chained []
  | cons {landed : Landed} {older : List Landed} {doc : Document} {target : ConversationStatus} :
      landed.before = some doc → (∀ value, lastStatus landed.slot older = some value →
        doc.get statusField = some value) →
      landed.update.set.get statusField = some (.str target.value) → Chained older →
      Chained (landed :: older)

structure Tracked (s : Store) : Prop where
  inside : ∀ landed ∈ s.landed, landed.slot < s.collection.slots.length
  chained : Chained s.landed
  current : ∀ slot doc value, s.collection.doc slot = some doc →
    lastStatus slot s.landed = some value → doc.get statusField = some value

structure Later (s s' : Store) : Prop where
  grows : s.collection.slots.length ≤ s'.collection.slots.length
  completed : ∀ slot doc', slot < s.collection.slots.length → s'.collection.doc slot = some doc' →
    ∃ doc, s.collection.doc slot = some doc ∧
      (statusOf doc = some .completed → statusOf doc' = some .completed)

theorem Later.refl (s : Store) : Later s s :=
  ⟨Nat.le_refl _, fun _ doc _ hdoc => ⟨doc, hdoc, id⟩⟩

theorem Later.trans {s₁ s₂ s₃ : Store} (h : Later s₁ s₂) (h' : Later s₂ s₃) : Later s₁ s₃ := by
  refine ⟨Nat.le_trans h.grows h'.grows, fun slot doc₃ hslot hdoc₃ => ?_⟩
  obtain ⟨doc₂, hdoc₂, hlast⟩ := h'.completed slot doc₃ (Nat.lt_of_lt_of_le hslot h.grows) hdoc₃
  obtain ⟨doc₁, hdoc₁, hfirst⟩ := h.completed slot doc₂ hslot hdoc₂
  exact ⟨doc₁, hdoc₁, fun hcompleted => hlast (hfirst hcompleted)⟩

variable {slot : Nat}

theorem StatusMove.edge (h : StatusMove s s') {doc' : Document}
    (hdoc : s.collection.doc slot = some doc) (hdoc' : s'.collection.doc slot = some doc')
    (hcurrent : statusOf doc = some current) (htarget : statusOf doc' = some target) :
    Edge current target := by
  have hsame : s'.collection.doc slot = some doc → Edge current target := by
    intro hunchanged
    obtain rfl := Option.some.inj (hunchanged.symm.trans hdoc')
    exact .inl (Option.some.inj (hcurrent.symm.trans htarget))
  cases h with
  | nothing => exact hsame hdoc
  | @updated changed before after update given hbefore hedge hset hafter =>
    by_cases hslot : slot = changed
    · subst hslot
      have hreplaced : Collection.doc (s.collection.replace slot after) slot = some after :=
        (Collection.doc_replace (Collection.lt_of_doc hbefore) after slot).trans (if_pos rfl)
      obtain rfl := Option.some.inj (hreplaced.symm.trans hdoc')
      obtain rfl := Option.some.inj (hbefore.symm.trans hdoc)
      obtain rfl := Option.some.inj ((statusOf_eq_some hafter).symm.trans htarget)
      exact hedge current hcurrent
    · apply hsame
      exact (Collection.doc_replace (Collection.lt_of_doc hbefore) after slot).trans
        ((if_neg hslot).trans hdoc)

theorem StatusMove.later (h : StatusMove s s') : Later s s' := by
  cases h with
  | nothing => exact .refl s
  | @updated changed before after update given hbefore hedge hset hafter =>
    refine ⟨by simp [Collection.replace], fun slot doc' hslot hdoc' => ?_⟩
    rw [Collection.doc_replace (Collection.lt_of_doc hbefore)] at hdoc'
    split at hdoc'
    · next hsame =>
      obtain rfl := Option.some.inj hdoc'
      refine ⟨before, hsame ▸ hbefore, fun hcompleted => ?_⟩
      rw [statusOf_eq_some hafter, edge_completed (hedge .completed hcompleted)]
    · exact ⟨doc', hdoc', id⟩

theorem StatusMove.tracked (h : StatusMove s s') (hs : Tracked s) : Tracked s' := by
  cases h with
  | nothing => exact hs
  | @updated changed before after update given hbefore hedge hset hafter =>
    have hlt := Collection.lt_of_doc hbefore
    refine ⟨?_, ?_, ?_⟩
    · simp only [List.forall_mem_cons, Collection.replace, List.length_set]
      exact ⟨hlt, hs.inside⟩
    · exact .cons rfl (fun value hlast => hs.current changed before value hbefore hlast) hset
        hs.chained
    · intro slot doc value hdoc hlast
      rw [Collection.doc_replace hlt] at hdoc
      unfold lastStatus at hlast
      by_cases hslot : slot = changed
      · rw [if_pos hslot.symm] at hlast
        rw [if_pos hslot] at hdoc
        obtain rfl := Option.some.inj hdoc
        rw [hafter, ← hset, hlast]
      · rw [if_neg (Ne.symm hslot)] at hlast
        rw [if_neg hslot] at hdoc
        exact hs.current slot doc value hdoc hlast

theorem OtherFields.later (h : OtherFields s s') : Later s s' := by
  refine ⟨h.grows, fun slot doc' hslot hdoc' => ?_⟩
  obtain ⟨doc, hdoc, hsame⟩ := h.statuses slot doc' hslot hdoc'
  refine ⟨doc, hdoc, fun hcompleted => ?_⟩
  rw [statusOf, hsame]
  exact hcompleted

variable {landed : List Landed}

theorem lastStatus_eq_none (h : ∀ entry ∈ landed, entry.slot ≠ slot) :
    lastStatus slot landed = none := by
  induction landed with
  | nil => rfl
  | cons entry older ih =>
    rw [lastStatus, if_neg (h entry List.mem_cons_self)]
    exact ih fun other hmem => h other (List.mem_cons_of_mem _ hmem)

theorem OtherFields.tracked (h : OtherFields s s') (hs : Tracked s) : Tracked s' := by
  refine ⟨?_, h.landed ▸ hs.chained, ?_⟩
  · intro landed hmem
    exact Nat.lt_of_lt_of_le (hs.inside landed (h.landed ▸ hmem)) h.grows
  · intro slot doc' value hdoc' hlast
    rw [h.landed] at hlast
    by_cases hslot : slot < s.collection.slots.length
    · obtain ⟨doc, hdoc, hsame⟩ := h.statuses slot doc' hslot hdoc'
      rw [hsame]
      exact hs.current slot doc value hdoc hlast
    · -- a document created since has no update in the journal
      rw [lastStatus_eq_none] at hlast
      · cases hlast
      · rintro entry hmem rfl
        exact hslot (hs.inside entry hmem)

theorem exists_of_lastStatus {value : Value} (h : lastStatus slot landed = some value) :
    ∃ entry ∈ landed, entry.slot = slot ∧ entry.update.set.get statusField = some value := by
  induction landed with
  | nil => cases h
  | cons entry older ih =>
    rw [lastStatus] at h
    split at h
    · next hslot => exact ⟨entry, List.mem_cons_self, hslot, h⟩
    · obtain ⟨found, hmem, hfound⟩ := ih h
      exact ⟨found, List.mem_cons_of_mem _ hmem, hfound⟩

variable {older : List Landed}

theorem lastStatus_append {between : List Landed} {earlier : Landed} (hslot : earlier.slot = slot) :
    lastStatus slot (between ++ earlier :: older) = lastStatus slot (between ++ [earlier]) := by
  induction between with
  | nil =>
    rw [List.nil_append, List.nil_append, lastStatus, lastStatus, if_pos hslot, if_pos hslot]
  | cons entry between ih =>
    rw [List.cons_append, List.cons_append, lastStatus, lastStatus, ih]

theorem Chained.of_append {newer : List Landed} (h : Chained (newer ++ older)) : Chained older := by
  induction newer with
  | nil => exact h
  | cons entry newer ih =>
    cases h with
    | cons _ _ _ hrest => exact ih hrest

theorem Chained.exists_lastStatus (h : Chained landed) {entry : Landed} (hmem : entry ∈ landed)
    (hslot : entry.slot = slot) :
    ∃ value, lastStatus slot landed = some value := by
  induction h with
  | nil => cases hmem
  | @cons latest older doc target hbefore hlast hset hrest ih =>
    rw [lastStatus]
    by_cases hlatest : latest.slot = slot
    · rw [if_pos hlatest]
      exact ⟨_, hset⟩
    · rw [if_neg hlatest]
      rcases List.mem_cons.mp hmem with rfl | hmem
      · exact absurd hslot hlatest
      · exact ih hmem

theorem Chained.between {newer between : List Landed} {earlier later : Landed}
    (h : Chained (newer ++ later :: (between ++ earlier :: older)))
    (hslot : earlier.slot = later.slot) (hcurrent : observedStatus later = some current) :
    ∃ entry ∈ between ++ [earlier], entry.slot = later.slot ∧ newStatus entry = some current := by
  cases h.of_append with
  | @cons _ _ doc target hbefore hlast hset hrest =>
    have hmem : earlier ∈ between ++ earlier :: older :=
      List.mem_append_right _ List.mem_cons_self
    obtain ⟨value, hvalue⟩ := hrest.exists_lastStatus hmem hslot
    have hfound := hlast value hvalue
    rw [lastStatus_append hslot] at hvalue
    obtain ⟨entry, hentryMem, hentry, hgives⟩ := exists_of_lastStatus hvalue
    refine ⟨entry, hentryMem, hentry, ?_⟩
    have hobserved : statusOf doc = some current := by
      rw [observedStatus, hbefore] at hcurrent
      exact hcurrent
    rw [newStatus, statusOf, hgives, ← hfound]
    exact hobserved

section Runs

variable {collides : Document → Document → Bool} {collection : Collection}
  {pool pool' : Pool (Remote Mongo.Error Mongo.Command) Unit Store}

theorem tracked_fresh {collection : Collection} : Tracked ⟨collection, []⟩ := by
  refine ⟨?_, .nil, ?_⟩
  · intro landed hmem
    cases hmem
  · intro slot doc value hdoc hlast
    cases hlast

/-- The pool at every moment of a run: the journal is chained, and every call issues commands of
status operations only. -/
abbrev StatusSound (collides : Document → Document → Bool) :
    Pool (Remote Mongo.Error Mongo.Command) Unit Store → Prop :=
  Pool.Sound (Remote.semantics fun command s reply s' =>
    Mongo.Performed collides command s reply s')
    Later (fun _ s s' => StatusMove s s') Tracked

theorem statusSound_later (h : StatusSound collides pool)
    (hlater : Relation.ReflTransGen (StatusStep collides) pool pool') :
    Later pool.shared pool'.shared ∧ StatusSound collides pool' := by
  refine Pool.Sound.run Tracked (fun _ s s' => StatusMove s s') (fun _ _ _ h h' => h.trans h')
    Later.refl (fun _ _ hs h => ⟨h.later, h.tracked hs⟩) (fun _ _ _ hs h => ⟨h.later, h.tracked hs⟩)
    ?_ h hlater
  rintro _ s _ ⟨statusCall, rfl⟩
  exact (issues_statusCall).safe
    (fun command s reply s' hcommand hstep => statusMove hcommand hstep) s

theorem statusSound_run (run : StatusRun collides collection pool) : StatusSound collides pool :=
  (statusSound_later ⟨tracked_fresh, List.forall_mem_nil _⟩ run).2

/-- In every run of transitions and failure marks, every change of a status is a self-step or an
edge of the table, COMPLETED is never left, and an update that finds the status that an earlier
update of the conversation found comes after an update that gave this status back. -/
theorem status_runs (run : StatusRun collides collection pool) :
    (∀ pool' slot doc doc' current target, StatusStep collides pool pool' →
      pool.shared.collection.doc slot = some doc → pool'.shared.collection.doc slot = some doc' →
      statusOf doc = some current → statusOf doc' = some target → Edge current target) ∧
    (∀ pool' slot doc doc', Relation.ReflTransGen (StatusStep collides) pool pool' →
      pool.shared.collection.doc slot = some doc → pool'.shared.collection.doc slot = some doc' →
      statusOf doc = some .completed → statusOf doc' = some .completed) ∧
    (∀ newer between older earlier later current,
      pool.shared.landed = newer ++ later :: (between ++ earlier :: older) →
      earlier.slot = later.slot → observedStatus earlier = some current →
      observedStatus later = some current →
      ∃ entry ∈ between ++ [earlier], entry.slot = later.slot ∧
        newStatus entry = some current) := by
  have hsound := statusSound_run run
  refine ⟨?_, ?_, ?_⟩
  · intro pool' slot doc doc' current target hstep hdoc hdoc' hcurrent htarget
    rcases hsound.moves Later.refl hstep with hsame | hother | ⟨_, _, hmove⟩
    · rw [hsame, hdoc] at hdoc'
      obtain rfl := Option.some.inj hdoc'
      exact .inl (Option.some.inj (hcurrent.symm.trans htarget))
    · obtain ⟨before, hbefore, hfield⟩ :=
        hother.statuses slot doc' (Collection.lt_of_doc hdoc) hdoc'
      obtain rfl := Option.some.inj (hbefore.symm.trans hdoc)
      rw [statusOf, hfield] at htarget
      exact .inl (Option.some.inj (hcurrent.symm.trans htarget))
    · exact hmove.edge hdoc hdoc' hcurrent htarget
  · intro pool' slot doc doc' hlater hdoc hdoc' hcompleted
    obtain ⟨before, hbefore, hstays⟩ :=
      (statusSound_later hsound hlater).1.completed slot doc' (Collection.lt_of_doc hdoc) hdoc'
    obtain rfl := Option.some.inj (hbefore.symm.trans hdoc)
    exact hstays hcompleted
  · intro newer between older earlier later current hlanded hslot _ hlater
    exact Chained.between (hlanded ▸ hsound.1.chained) hslot hlater

end Runs

/-! Three transitions of one conversation. The first two find it in FINALIZING. -/

def sampleTransition (target : ConversationStatus) : StatusCall :=
  .transition
    { guard := .ok ()
      object := none
      conversationId := .str "c1"
      conversationText := "c1"
      target
      updates := []
      now := .other "t1"
      status_free := rfl }

def sampleFinalizing : Collection :=
  ⟨[some [("_id", .str "c1"), (statusField, .str ConversationStatus.finalizing.value)]]⟩

def sampleStatusPool : Pool (Remote Mongo.Error Mongo.Command) Unit Store :=
  ⟨[(sampleTransition .waitingForTranscripts).program,
      (sampleTransition .readyForProcessing).program, (sampleTransition .finalizing).program],
    ⟨sampleFinalizing, []⟩⟩

def sampleStatusAfter (order : List Nat) : Pool (Remote Mongo.Error Mongo.Command) Unit Store :=
  sampleStatusPool.turns (Mongo.Command.answer fun _ _ => false) order

theorem sampleStatus_run {order : List Nat}
    (h : sampleStatusPool.turnsPass (Mongo.Command.answer fun _ _ => false)
      (fun _ _ => true) order = true) :
    StatusRun (fun _ _ => false) sampleFinalizing (sampleStatusAfter order) := by
  have hstarted : StatusRun (fun _ _ => false) sampleFinalizing sampleStatusPool :=
    ((Relation.ReflTransGen.single (.spawn ⟨sampleTransition .finalizing, rfl⟩)).tail
      (.spawn ⟨sampleTransition .readyForProcessing, rfl⟩)).tail
        (.spawn ⟨sampleTransition .waitingForTranscripts, rfl⟩)
  apply hstarted.trans
  apply Pool.turns_run (fun _ _ => true) _ order _ h
  rintro _ ⟨command⟩ s _
  exact ⟨0, .answered⟩

theorem status_runs_sample :
    (sampleStatusAfter [0, 1, 0, 2, 2, 1]).shared.landed.length = 3 ∧
      ∀ newer between older earlier later current,
        (sampleStatusAfter [0, 1, 0, 2, 2, 1]).shared.landed =
          newer ++ later :: (between ++ earlier :: older) →
        earlier.slot = later.slot → observedStatus earlier = some current →
        observedStatus later = some current →
        ∃ entry ∈ between ++ [earlier], entry.slot = later.slot ∧
          newStatus entry = some current :=
  ⟨by decide +kernel, (status_runs (sampleStatus_run rfl)).2.2⟩

/-- The first two transitions have both found FINALIZING before either writes. The first one
writes its target, the third one goes back to FINALIZING, and the second one writes too. -/
theorem both_transitions_land :
    StatusRun (fun _ _ => false) sampleFinalizing (sampleStatusAfter [0, 1, 0, 2, 2, 1]) ∧
    (sampleStatusAfter [0, 1]).shared.landed.length = 0 ∧
    (sampleStatusAfter [0, 1, 0, 2, 2, 1]).shared.landed.map
      (fun landed => (landed.slot, observedStatus landed, newStatus landed)) =
        [(0, some .finalizing, some .readyForProcessing),
          (0, some .waitingForTranscripts, some .finalizing),
          (0, some .finalizing, some .waitingForTranscripts)] := by
  refine ⟨sampleStatus_run rfl, by decide +kernel, by decide +kernel⟩

end AiBuddy.Conversation
