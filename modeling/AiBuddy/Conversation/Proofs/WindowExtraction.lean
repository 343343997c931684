import AiBuddy.Conversation.WindowExtraction
import AiBuddy.Queue.MongoFence.Proofs.Writes

/-!
# Older attempts and completed windows

A command of a task is guarded by the status, or fenced, or it is the plain write of
`fail_window`. As long as the last kind spares completed windows, no older attempt changes what a
newer one has completed.
-/

namespace AiBuddy.Conversation.WindowExtraction

open Mongo Program Queue.JobLease Queue.MongoFence

structure Guarded (filter : Filter) (update : Update) : Prop where
  status : update.set.get statusPath ≠ some (text .completed)
  accepts : ∀ doc, filter.accepts doc = true → windowStatus doc ≠ text .completed

structure Completing (token : Option Int) (filter : Filter) (update : Update) : Prop where
  status : update.set.get statusPath = some (text .completed)
  fence : ∃ number, token = some number ∧ update.set.get fenceField = some (.int number) ∧
    ∀ doc fence, filter.accepts doc = true → fenceOf doc = some fence → fence ≤ number

def WindowCommand (token : Option Int) {β : Type} (command : Remote Mongo.Error Mongo.Command β) :
    Prop :=
  match command with
  | .send command =>
    ∀ filter update upsert, command.update? = some (filter, update, upsert) → upsert = false ∧
      (Guarded filter update ∨ update.set.get statusPath = some (text .failed) ∨
        Completing token filter update)

inductive WindowMove (token : Option Int) (s : Store) : Store → Prop where
  | nothing : WindowMove token s s
  | plain {slot : Nat} {doc : Document} {update : Update} : s.collection.doc slot = some doc →
      windowStatus doc ≠ text .completed → update.set.get statusPath ≠ some (text .completed) →
      WindowMove token s
        ⟨s.collection.replace slot (update.apply false doc), ⟨slot, some doc, update⟩ :: s.landed⟩
  | completed {slot : Nat} {doc : Document} {update : Update} {number : Int} :
      token = some number → s.collection.doc slot = some doc →
      (∀ fence, fenceOf doc = some fence → fence ≤ number) →
      update.set.get statusPath = some (text .completed) →
      update.set.get fenceField = some (.int number) →
      WindowMove token s
        ⟨s.collection.replace slot (update.apply false doc), ⟨slot, some doc, update⟩ :: s.landed⟩

theorem text_ne_completed (status : WindowProcessingStatus) (h : status ≠ .completed) :
    text status ≠ text .completed := by
  intro hsame
  cases status with
  | completed => exact h rfl
  | _ => exact absurd hsame (by decide)

variable {s : Store}

theorem windowMove {token : Option Int} {β : Type} {command : Remote Mongo.Error Mongo.Command β}
    {collides : Document → Document → Bool} {s' : Store} {reply : β}
    (hcommand : WindowCommand token command)
    (h : Remote.semantics (fun command s reply s' => sparesCompleted command s = true ∧
      Mongo.Performed collides command s reply s') command s reply s') :
    WindowMove token s s' := by
  cases command with
  | send command =>
    obtain ⟨hspares, hperformed⟩ : sparesCompleted command s = true ∧
      Mongo.Performed collides command s reply s' := h
    cases effect_of_performed hperformed with
    | nothing => exact .nothing
    | @updated filter update upsert slot doc hupdate hdoc haccepts =>
      obtain ⟨-, hguarded | hfailed | hcompleting⟩ := hcommand _ _ _ hupdate
      · exact .plain hdoc (hguarded.accepts doc haccepts) hguarded.status
      · -- the plain write of `fail_window`
        have hstatus : windowStatus doc ≠ text .completed := by
          unfold sparesCompleted at hspares
          rw [hupdate] at hspares
          simp only [hfailed, ne_eq, not_true_eq_false, decide_false, Bool.false_or,
            List.all_eq_true, decide_eq_true_eq] at hspares
          exact hspares (slot, doc) (Collection.mem_matching.mpr ⟨hdoc, haccepts⟩)
        refine .plain hdoc hstatus ?_
        rw [hfailed]
        exact fun hsame => text_ne_completed .failed nofun (Option.some.inj hsame)
      · obtain ⟨number, htoken, hfence, hle⟩ := hcompleting.fence
        exact .completed htoken hdoc (fun fence => hle doc fence haccepts) hcompleting.status hfence
    | inserted hupdate =>
      obtain ⟨hfalse, -⟩ := hcommand _ _ _ hupdate
      cases hfalse

variable {token : Option Int}

theorem windowCommand_findOne (filter : Filter) :
    WindowCommand token (.send (.findOne filter)) := by
  rintro _ _ _ ⟨⟩

variable {doc : Document}

theorem status_of_equals {base : Filter} {path : Value} {rest : Filter}
    (h : Filter.accepts (base ++ .equals statusPath path :: rest) doc = true) :
    windowStatus doc = path := by
  have hclauses := (Filter.accepts_append h).2
  rw [Filter.accepts, List.all_cons, Bool.and_eq_true] at hclauses
  exact of_decide_eq_true hclauses.1

theorem status_of_among {base : Filter} {values : List Value}
    (h : Filter.accepts (base ++ [.among statusPath values]) doc = true) :
    windowStatus doc ∈ values := by
  have hclauses := (Filter.accepts_append h).2
  rw [Filter.accepts, List.all_cons, Bool.and_eq_true] at hclauses
  exact of_decide_eq_true hclauses.1

theorem issues_markWindowProcessing {windowId now : Value} :
    (markWindowProcessing windowId now).run.Issues (WindowCommand token) := by
  apply Issues.send
  rintro _ _ _ ⟨⟩
  refine ⟨rfl, .inl ⟨fun hsame => text_ne_completed .processing nofun (Option.some.inj hsame), ?_⟩⟩
  intro doc haccepts hcompleted
  have hmem := status_of_among haccepts
  rw [hcompleted] at hmem
  exact absurd hmem (by decide)

theorem issues_failWindow {windowId now : Value} {error : String} :
    (failWindow windowId now error).run.Issues (WindowCommand token) := by
  apply Issues.raising_bind
  · apply Issues.send
    rintro _ _ _ ⟨⟩
    exact ⟨rfl, .inr (.inl rfl)⟩
  · intro _
    trivial

theorem issues_reclaim (stale : Option Value → Bool) (now : Value) (windowIds : List Value) :
    (reclaimStaleProcessingWindows stale now windowIds).run.Issues (WindowCommand token) := by
  induction windowIds with
  | nil => trivial
  | cons windowId rest ih =>
    apply Issues.raising_bind
    · apply Issues.send
      rintro _ _ _ ⟨⟩
      refine ⟨rfl, .inl ⟨fun hsame => text_ne_completed .pending nofun (Option.some.inj hsame), ?_⟩⟩
      intro doc haccepts hcompleted
      have hprocessing := status_of_equals haccepts
      exact text_ne_completed .processing nofun (hprocessing.symm.trans hcompleted)
    · exact fun _ => ih

theorem issues_completeWindow {object : LeaseObject} (guard : Except WriteError Unit)
    (windowId now : Value) (result : WindowResult) :
    (completeWindow guard object windowId now result).run.Issues
      (WindowCommand (Text.int? object.lease.token)) := by
  refine Issues.raising_bind trivial fun _ => ?_
  apply Issues.raising_bind
  · apply Issues.bind
    · apply issues_fencedUpdateOne windowCommand_findOne
      · exact nofun
      · rintro number htoken _ _ _ ⟨⟩
        have hstatus : (withFence (result.update now) number).set.get statusPath =
            some (text .completed) := withFence_get (by decide)
        refine ⟨rfl, .inr (.inr ⟨hstatus, number, token_of_leaseFenceToken htoken, ?_, ?_⟩)⟩
        · exact fenceOf_eq_some.mp (fenceOf_withFence (result.update now) number)
        · exact fun doc fence haccepts hfence => fence_le_of_accepts haccepts hfence
      · exact nofun
    · exact fun _ => trivial
  · exact fun _ => trivial

theorem issues_body {attempt : Attempt} :
    attempt.body.run.Issues (WindowCommand attempt.token?) := by
  unfold Attempt.body
  cases attempt.work with
  | deferred result => exact issues_completeWindow _ _ _ _
  | raised message => trivial
  | failed message =>
    apply Issues.raising_bind issues_failWindow
    exact fun _ => trivial
  | unpersisted => exact issues_failWindow
  | extracted result traceError =>
    apply Issues.raising_bind (issues_completeWindow _ _ _ _)
    intro _
    cases traceError <;> trivial

theorem issues_extractWindow {attempt : Attempt} :
    attempt.extractWindow.run.Issues (WindowCommand attempt.token?) := by
  apply Issues.raising_bind (Issues.send (windowCommand_findOne _))
  intro existing
  split
  · trivial
  · apply Issues.raising_bind issues_markWindowProcessing
    rintro (_ | marked)
    · apply Issues.raising_bind (Issues.send (windowCommand_findOne _))
      exact fun _ => trivial
    · apply Issues.attempt_bind issues_body
      rintro (error | value)
      · apply Issues.raising_bind issues_failWindow
        exact fun _ => trivial
      · trivial

theorem issues_task (task : WindowTask) :
    task.program.Issues fun command =>
      command.label = task.token? ∧ WindowCommand task.token? command.command := by
  apply Issues.labelled
  cases task with
  | attempt extraction => exact Issues.bind issues_extractWindow fun _ => trivial
  | reclaim stale now windowIds => exact Issues.bind (issues_reclaim stale now windowIds) fun _ =>
    trivial

def Entered (token : Option Int) (j j' : Journaled (Option Int) Store) : Prop :=
  WindowMove token j.state j'.state ∧ j'.events = ⟨token, j.state, j'.state⟩ :: j.events

structure Kept (j : Journaled (Option Int) Store) : Prop where
  inside : ∀ event ∈ j.events, ∀ slot, Completes event slot → slot < j.state.collection.slots.length
  current : ∀ event ∈ j.events, ∀ slot token doc, Completes event slot →
    event.label = some token → j.state.collection.doc slot = some doc →
    windowStatus doc = text .completed ∧ ∃ fence, fenceOf doc = some fence ∧ token ≤ fence
  quiet : NoStaleChange j.events

theorem kept_fresh {collection : Collection} : Kept ⟨⟨collection, []⟩, []⟩ := by
  refine ⟨?_, ?_, .nil⟩
  · intro event hmem
    cases hmem
  · intro event hmem
    cases hmem

variable {slot changed : Nat} {before doc' : Document} {update : Update}

theorem slot_of_completes
    (h : Completes ⟨token, s, ⟨s.collection.replace changed doc',
      ⟨changed, some before, update⟩ :: s.landed⟩⟩ slot) :
    slot = changed ∧ update.set.get statusPath = some (text .completed) := by
  obtain ⟨doc, found, hlanded, hstatus⟩ := h
  simp only [List.cons.injEq, Landed.mk.injEq, and_true] at hlanded
  obtain ⟨rfl, -, rfl⟩ := hlanded
  exact ⟨rfl, hstatus⟩

theorem not_completes_self : ¬ Completes ⟨token, s, s⟩ slot := by
  rintro ⟨doc, update, hlanded, -⟩
  exact List.cons_ne_self _ _ hlanded.symm

theorem slot_of_changes {landed : List Landed} (hdoc : s.collection.doc changed = some doc)
    (h : Changes ⟨token, s, ⟨s.collection.replace changed doc', landed⟩⟩ slot) :
    slot = changed := by
  obtain ⟨before, after, path, hbefore, hafter, -, hdiffers⟩ := h
  by_contra hslot
  rw [Collection.doc_replace (Collection.lt_of_doc hdoc), if_neg hslot] at hafter
  obtain rfl := Option.some.inj (hbefore.symm.trans hafter)
  exact hdiffers rfl

theorem not_changes_self : ¬ Changes ⟨token, s, s⟩ slot := by
  rintro ⟨before, after, path, hbefore, hafter, -, hdiffers⟩
  obtain rfl := Option.some.inj (hbefore.symm.trans hafter)
  exact hdiffers rfl

variable {j : Journaled (Option Int) Store}

theorem Kept.current_of_ne (h : Kept j) {landed : List Landed} (hslot : slot ≠ changed)
    (hlt : changed < j.state.collection.slots.length) {event : Event (Option Int) Store}
    (hmem : event ∈ j.events) {number : Int} (hcompletes : Completes event slot)
    (hlabel : event.label = some number)
    (hdoc : Collection.doc (Store.collection ⟨j.state.collection.replace changed doc', landed⟩)
      slot = some doc) :
    windowStatus doc = text .completed ∧ ∃ fence, fenceOf doc = some fence ∧ number ≤ fence := by
  rw [Collection.doc_replace hlt, if_neg hslot] at hdoc
  exact h.current event hmem slot number doc hcompletes hlabel hdoc

theorem Kept.plain (h : Kept j) (hdoc : j.state.collection.doc changed = some before)
    (hstatus : windowStatus before ≠ text .completed)
    (hset : update.set.get statusPath ≠ some (text .completed)) :
    let after : Store := ⟨j.state.collection.replace changed (update.apply false before),
      ⟨changed, some before, update⟩ :: j.state.landed⟩
    Kept ⟨after, ⟨token, j.state, after⟩ :: j.events⟩ := by
  intro after
  have hlt := Collection.lt_of_doc hdoc
  have hfree : ∀ event ∈ j.events, ∀ number, event.label = some number →
      ¬ Completes event changed := by
    intro event hmem number hlabel hcompletes
    exact hstatus (h.current event hmem changed number before hcompletes hlabel hdoc).1
  refine ⟨?_, ?_, ?_⟩
  · simp only [List.forall_mem_cons, after, Collection.replace, List.length_set]
    refine ⟨?_, h.inside⟩
    intro slot hcompletes
    exact absurd (slot_of_completes hcompletes).2 hset
  · rw [List.forall_mem_cons]
    refine ⟨?_, ?_⟩
    · intro slot number doc hcompletes
      exact absurd (slot_of_completes hcompletes).2 hset
    · intro event hmem slot number doc hcompletes hlabel hdoc'
      have hslot : slot ≠ changed := by
        rintro rfl
        exact hfree event hmem number hlabel hcompletes
      exact h.current_of_ne hslot hlt hmem hcompletes hlabel hdoc'
  · refine .cons ?_ h.quiet
    intro event hmem slot number number' _ hlabel _ hcompletes hchanges
    obtain rfl := slot_of_changes hdoc hchanges
    exact hfree event hmem number' hlabel hcompletes

theorem Kept.completed (h : Kept j) {number : Int}
    (hdoc : j.state.collection.doc changed = some before)
    (hle : ∀ fence, fenceOf before = some fence → fence ≤ number)
    (hset : update.set.get statusPath = some (text .completed))
    (hfence : update.set.get fenceField = some (.int number)) :
    let after : Store := ⟨j.state.collection.replace changed (update.apply false before),
      ⟨changed, some before, update⟩ :: j.state.landed⟩
    Kept ⟨after, ⟨some number, j.state, after⟩ :: j.events⟩ := by
  intro after
  have hlt := Collection.lt_of_doc hdoc
  have hstored : windowStatus (update.apply false before) = text .completed ∧
      fenceOf (update.apply false before) = some number := by
    refine ⟨?_, fenceOf_eq_some.mpr (Update.get_apply hfence false before)⟩
    rw [windowStatus, Update.get_apply hset false before]
    rfl
  have hnewest : ∀ event ∈ j.events, ∀ number', event.label = some number' →
      Completes event changed → number' ≤ number := by
    intro event hmem number' hlabel hcompletes
    obtain ⟨-, fence, hbefore, hfenced⟩ :=
      h.current event hmem changed number' before hcompletes hlabel hdoc
    exact Int.le_trans hfenced (hle fence hbefore)
  have hafter : ∀ slot doc, after.collection.doc slot = some doc → slot = changed →
      doc = update.apply false before := by
    intro slot doc hdoc' hslot
    rw [Collection.doc_replace hlt, if_pos hslot] at hdoc'
    exact (Option.some.inj hdoc').symm
  refine ⟨?_, ?_, ?_⟩
  · simp only [List.forall_mem_cons, after, Collection.replace, List.length_set]
    refine ⟨?_, h.inside⟩
    intro slot hcompletes
    rw [(slot_of_completes hcompletes).1]
    exact hlt
  · rw [List.forall_mem_cons]
    refine ⟨?_, ?_⟩
    · intro slot token doc hcompletes hlabel hdoc'
      obtain rfl := hafter slot doc hdoc' (slot_of_completes hcompletes).1
      cases hlabel
      exact ⟨hstored.1, number, hstored.2, Int.le_refl _⟩
    · intro event hmem slot number' doc hcompletes hlabel hdoc'
      by_cases hslot : slot = changed
      · obtain rfl := hafter slot doc hdoc' hslot
        subst hslot
        exact ⟨hstored.1, number, hstored.2, hnewest event hmem number' hlabel hcompletes⟩
      · exact h.current_of_ne hslot hlt hmem hcompletes hlabel hdoc'
  · refine .cons ?_ h.quiet
    intro event hmem slot token number' hlabel hlabel' hlt' hcompletes hchanges
    obtain rfl := slot_of_changes hdoc hchanges
    cases hlabel
    exact Int.not_lt.mpr (hnewest event hmem number' hlabel' hcompletes) hlt'

theorem Entered.kept {j' : Journaled (Option Int) Store} (h : Entered token j j') (hj : Kept j) :
    Kept j' := by
  obtain ⟨hmove, hevents⟩ := h
  obtain ⟨state, events⟩ := j'
  have hevents : events = ⟨token, j.state, state⟩ :: j.events := hevents
  subst hevents
  cases hmove with
  | nothing =>
    refine ⟨?_, ?_, ?_⟩
    · rw [List.forall_mem_cons]
      exact ⟨fun slot hcompletes => absurd hcompletes not_completes_self, hj.inside⟩
    · rw [List.forall_mem_cons]
      exact ⟨fun slot _ _ hcompletes => absurd hcompletes not_completes_self, hj.current⟩
    · refine .cons ?_ hj.quiet
      intro event hmem slot number number' _ _ _ _
      exact not_changes_self
  | plain hdoc hstatus hset => exact hj.plain hdoc hstatus hset
  | completed htoken hdoc hle hset hfence =>
    subst htoken
    exact hj.completed hdoc hle hset hfence

theorem Kept.outside {j' : Journaled (Option Int) Store} (h : Journaled.Outside OtherMoves j j')
    (hj : Kept j) : Kept j' := by
  obtain ⟨hmoves, hevents⟩ := h
  refine ⟨?_, ?_, hevents ▸ hj.quiet⟩
  · intro event hmem slot hcompletes
    exact Nat.lt_of_lt_of_le (hj.inside event (hevents ▸ hmem) slot hcompletes) hmoves.grows
  · intro event hmem slot number doc' hcompletes hlabel hdoc'
    rw [hevents] at hmem
    obtain ⟨doc, hdoc, hfence, hfields⟩ :=
      hmoves.fields slot doc' (hj.inside event hmem slot hcompletes) hdoc'
    obtain ⟨hstatus, fence, hfenceOf, hle⟩ :=
      hj.current event hmem slot number doc hcompletes hlabel hdoc
    refine ⟨?_, fence, ?_, hle⟩
    · rw [windowStatus, hfields statusPath List.mem_cons_self]
      exact hstatus
    · rw [fenceOf, hfence]
      exact hfenceOf

section Runs

variable {collides : Document → Document → Bool} {collection : Collection}
  {pool : Pool WindowCommands Unit (Journaled (Option Int) Store)}

/-- As long as no `fail_window` comes upon a window that is COMPLETED, no attempt changes the
status, the result or the error of a window that an attempt with a newer token has completed. -/
theorem stale_attempts_harmless
    (run : WindowRun collides (fun command s => sparesCompleted command s = true) collection pool) :
    NoStaleChange pool.shared.events := by
  have hstarted : Pool.Sound
      (Labelled.semantics (Remote.semantics fun command s reply s' =>
        sparesCompleted command s = true ∧ Mongo.Performed collides command s reply s'))
      (fun _ _ => True) (fun command j j' => Entered command.label j j') Kept
      (⟨[], ⟨⟨collection, []⟩, []⟩⟩ : Pool WindowCommands Unit (Journaled (Option Int) Store)) :=
    ⟨kept_fresh, List.forall_mem_nil _⟩
  have hsound := hstarted.run Kept (fun command j j' => Entered command.label j j')
    (fun _ _ _ _ _ => trivial) (fun _ => trivial)
    (fun _ _ hj h => ⟨trivial, hj.outside h⟩) (fun _ _ _ hj h => ⟨trivial, h.kept hj⟩) ?_ run
  · exact hsound.2.1.quiet
  · rintro _ j _ ⟨task, rfl⟩
    apply (issues_task task).safe
    rintro _ ⟨label, command⟩ j reply j' ⟨rfl, hcommand⟩ ⟨hstep, hevents⟩
    exact ⟨windowMove hcommand hstep, hevents⟩

end Runs

/-! Two attempts at one window, with tokens 1 and 2. The first one finds its lease lost when it
wants to complete the window. -/

def sampleAttempt (token : Int) (guard : Except WriteError Unit) : WindowTask :=
  .attempt
    { windowId := .str "w1"
      object :=
        { lease :=
            { logicalKey := "conversation.window.extraction.requested|window:w1"
              owner := "worker"
              token := token.repr
              messageId := "1-0"
              eventId := "e1"
              eventType := "conversation.window.extraction.requested"
              retryCount := 0 } }
      guard
      conversationEnded := false
      work := .extracted { result := .other "result", provider := "p", model := "m" } none
      mongoText := fun _ => ""
      now := .other "now" }

def sampleReclaim : WindowTask := .reclaim (fun _ => true) (.other "now") [.str "w1"]

def sampleStale : WindowTask :=
  sampleAttempt 1
    (.error (.staleOwnership "conversation.window.extraction.requested|window:w1" "lease_lost"))

def sampleWindow : Collection := ⟨[some [("_id", .str "w1"), (statusPath, text .pending)]]⟩

def sampleWindowPool : Pool WindowCommands Unit (Journaled (Option Int) Store) :=
  ⟨[sampleStale.program, sampleReclaim.program, (sampleAttempt 2 (.ok ())).program],
    ⟨⟨sampleWindow, []⟩, []⟩⟩

def sampleWindowAfter (order : List Nat) :
    Pool WindowCommands Unit (Journaled (Option Int) Store) :=
  sampleWindowPool.turns (Labelled.answer (Mongo.Command.answer fun _ _ => false)) order

/-- `sparesCompleted`, for the commands of tasks. -/
def taskSparesCompleted {β : Type} (command : WindowCommands β)
    (j : Journaled (Option Int) Store) : Bool :=
  match command.command with
  | .send command => sparesCompleted command j.state

theorem sampleWindow_run (allowed : ∀ {α : Type}, Mongo.Command α → Store → Prop)
    (check : ∀ {β : Type}, WindowCommands β → Journaled (Option Int) Store → Bool)
    (hallowed : ∀ {α : Type} (label : Option Int) (command : Mongo.Command α) j,
      check (⟨label, .send command⟩ : WindowCommands (Except Mongo.Error α)) j = true →
        allowed command j.state)
    (order : List Nat)
    (h : sampleWindowPool.turnsPass (Labelled.answer (Mongo.Command.answer fun _ _ => false)) check
      order = true) :
    WindowRun (fun _ _ => false) allowed sampleWindow (sampleWindowAfter order) := by
  have hstarted : WindowRun (fun _ _ => false) allowed sampleWindow sampleWindowPool :=
    ((Relation.ReflTransGen.single (.spawn ⟨sampleAttempt 2 (.ok ()), rfl⟩)).tail
      (.spawn ⟨sampleReclaim, rfl⟩)).tail (.spawn ⟨sampleStale, rfl⟩)
  apply hstarted.trans
  apply Pool.turns_run check _ order _ h
  rintro _ ⟨label, ⟨command⟩⟩ j hcheck
  exact ⟨⟨hallowed label command j hcheck, 0, .answered⟩, rfl⟩

theorem stale_attempts_harmless_sample :
    (sampleWindowAfter [0, 0, 1, 2, 2, 2]).shared.events.map Event.label =
        [some 2, some 2, some 2, none, some 1, some 1] ∧
      ((sampleWindowAfter [0, 0, 1, 2, 2, 2]).shared.state.collection.doc 0).map windowStatus =
        some (text .completed) ∧
      NoStaleChange (sampleWindowAfter [0, 0, 1, 2, 2, 2]).shared.events :=
  ⟨by decide +kernel, by decide +kernel,
    stale_attempts_harmless
      (sampleWindow_run _ taskSparesCompleted (fun _ _ _ h => h) [0, 0, 1, 2, 2, 2]
        (by decide +kernel))⟩

/-- After the attempt with token 2 has completed the window, the one with token 1 marks it FAILED:
the lost lease is raised by `complete_window`, and the handler writes without a fence. -/
theorem stale_attempt_fails_window :
    WindowRun (fun _ _ => false) (fun _ _ => True) sampleWindow
      (sampleWindowAfter [0, 0, 1, 2, 2, 2, 0]) ∧
    ((sampleWindowAfter [0, 0, 1, 2, 2, 2]).shared.state.collection.doc 0).map windowStatus =
      some (text .completed) ∧
    ((sampleWindowAfter [0, 0, 1, 2, 2, 2, 0]).shared.state.collection.doc 0).map windowStatus =
      some (text .failed) ∧
    ¬ NoStaleChange (sampleWindowAfter [0, 0, 1, 2, 2, 2, 0]).shared.events := by
  refine ⟨sampleWindow_run _ (fun _ _ => true) (fun _ _ _ _ => trivial) _ rfl, by decide +kernel,
    by decide +kernel, ?_⟩
  intro hquiet
  have hpair := List.pairwise_iff_getElem.mp hquiet 0 1 (by decide +kernel) (by decide +kernel)
    (by decide)
  refine hpair 0 1 2 rfl rfl (by decide) ⟨_, _, rfl, rfl⟩ ⟨_, _, statusPath, rfl, rfl, ?_, ?_⟩
  · exact List.mem_cons_self
  · decide +kernel

end AiBuddy.Conversation.WindowExtraction
