import AiBuddy.Transcription.Proofs.Commands

/-!
# What attempts keep

Where attempts return from their handler only when the work for their record is done, it is done
once the message is acknowledged.
-/

namespace AiBuddy.Transcription

open Program Conversation Conversation.Session

variable {sequence token : Nat} {s s' : State}

structure Truthful (fulfilled : Completer → Prop) (s : State) (record : Completer) : Prop where
  fulfilled : record.returned = true → fulfilled record
  ready : record.ready = true → .ready ∈ s.published
  finalization : record.finalization = true → ∃ last, .finalization last ∈ s.published
  expected : record.expected = true → expects s.session.conversation = true
  read : ∀ conversation, record.read = some conversation → record.expected = true →
    expects conversation = true

def AllReturned (s : State) : Prop :=
  ∀ token record, s.completers token = some record → record.returned = true

theorem allReturned_of_back (hunused : Unused s) (h : s.Back) : AllReturned s := by
  intro token record hrecord
  by_cases hle : token ≤ s.tokens
  · have hall := h token hle
    rwa [hrecord] at hall
  · rw [hunused token (Nat.lt_of_not_le hle)] at hrecord
    cases hrecord

structure Sound (sequence : Nat) (fulfilled : Completer → Prop) (s : State) : Prop where
  records : ∀ token record, s.completers token = some record → Truthful fulfilled s record
  completed : completedIn sequence s.session = true →
    ∃ token record, s.completers token = some record
  back : s.copies = [] → AllReturned s

section Soundness

variable {fulfilled : Completer → Prop} {completing : Prop}

theorem Truthful.later {record : Completer} (h : Truthful fulfilled s record)
    (hpublished : ∀ announcement ∈ s.published, announcement ∈ s'.published)
    (hexpected : expects s.session.conversation = true → expects s'.session.conversation = true) :
    Truthful fulfilled s' record where
  fulfilled := h.fulfilled
  ready hready := hpublished _ (h.ready hready)
  finalization hfinalization := (h.finalization hfinalization).imp fun _ => hpublished _
  expected := hexpected ∘ h.expected
  read := h.read

section

variable (h : Sound sequence fulfilled s)

include h

theorem Sound.noted {change : Completer → Completer}
    (hchange : ∀ record, s.completers token = some record → record.returned = false →
      Truthful fulfilled s (change record)) :
    Sound sequence fulfilled (s.noted token change) := by
  have hrecords : ∀ other record, (s.noted token change).completers other = some record →
      s.completers other = some record ∨
        other = token ∧ ∃ before, s.completers token = some before ∧ before.returned = false ∧
          record = change before := by
    intro other record hrecord
    by_cases hsame : other = token
    · subst hsame
      rw [noted_self, Option.map_eq_some_iff] at hrecord
      obtain ⟨before, hbefore, hrecord⟩ := hrecord
      cases hreturned : before.returned with
      | true =>
        rw [hreturned, if_pos rfl] at hrecord
        exact .inl (hrecord ▸ hbefore)
      | false =>
        rw [hreturned, if_neg Bool.false_ne_true] at hrecord
        exact .inr ⟨rfl, before, hbefore, hreturned, hrecord.symm⟩
    · rw [noted_other hsame] at hrecord
      exact .inl hrecord
  refine ⟨?_, ?_, ?_⟩
  · intro other record hrecord
    rcases hrecords other record hrecord with hbefore | ⟨-, before, hbefore, hreturned, rfl⟩
    · exact (h.records other record hbefore).later (fun _ hmem => hmem) id
    · exact (hchange before hbefore hreturned).later (fun _ hmem => hmem) id
  · intro hcompleted
    obtain ⟨other, record, hrecord⟩ := h.completed hcompleted
    by_cases hsame : other = token
    · subst hsame
      exact ⟨other, _, (noted_self change).trans (congrArg _ hrecord)⟩
    · exact ⟨other, record, (noted_other hsame).trans hrecord⟩
  · intro hcopies other record hrecord
    rcases hrecords other record hrecord with hbefore | ⟨-, before, hbefore, hreturned, -⟩
    · exact h.back hcopies other record hbefore
    · rw [h.back hcopies _ before hbefore] at hreturned
      cases hreturned

theorem Sound.reached {session : Session.State} (hmove : HandlerMove completing s.session session)
    (hturn : completedIn sequence s.session = false → completedIn sequence session = true →
      s.copies ≠ []) :
    Sound sequence fulfilled (s.reached sequence token session) := by
  have hexpects := hmove.conversation.1
  refine ⟨?_, ?_, ?_⟩
  · intro other record hrecord
    rcases reached_record hrecord with hbefore | ⟨-, -, rfl⟩
    · exact (h.records other record hbefore).later (fun _ hmem => hmem) fun hset =>
        hexpects.trans hset
    · refine ⟨fun h => absurd h Bool.false_ne_true, fun h => absurd h Bool.false_ne_true,
        fun h => absurd h Bool.false_ne_true, fun hset => hset, fun conversation hread => ?_⟩
      cases hread
  · intro hcompleted
    cases hbefore : completedIn sequence s.session with
    | true =>
      obtain ⟨other, record, hrecord⟩ := h.completed hbefore
      refine ⟨other, record, (if_neg ?_).trans hrecord⟩
      rintro ⟨-, hnone, -, -⟩
      rw [hrecord] at hnone
      cases hnone
    | false =>
      cases hrecord : s.completers token with
      | some record =>
        refine ⟨token, record, (if_neg ?_).trans hrecord⟩
        rintro ⟨-, hnone, -, -⟩
        rw [hrecord] at hnone
        cases hnone
      | none => exact ⟨token, _, if_pos ⟨rfl, hrecord, hbefore, hcompleted⟩⟩
  · intro hcopies other record hrecord
    rcases reached_record hrecord with hbefore | ⟨hopen, hcompleted, -⟩
    · exact h.back hcopies other record hbefore
    · exact absurd hcopies (hturn hopen hcompleted)

theorem Sound.same (hrecords : s'.completers = s.completers)
    (hpublished : ∀ announcement ∈ s.published, announcement ∈ s'.published)
    (hexpected : expects s.session.conversation = true → expects s'.session.conversation = true)
    (hcompleted : completedIn sequence s'.session = true → completedIn sequence s.session = true)
    (hcopies : s'.copies = [] → AllReturned s) : Sound sequence fulfilled s' := by
  refine ⟨?_, ?_, ?_⟩
  · intro other record hrecord
    rw [hrecords] at hrecord
    exact (h.records other record hrecord).later hpublished hexpected
  · intro hafter
    rw [hrecords]
    exact h.completed (hcompleted hafter)
  · intro hempty other record hrecord
    rw [hrecords] at hrecord
    exact hcopies hempty other record hrecord

theorem Sound.comes {run : State → State} {reply : Except Fault Unit}
    (hrun : Sound sequence fulfilled (run s)) (hstep : Comes run s reply s') :
    Sound sequence fulfilled s' := by
  rcases hstep with ⟨-, rfl⟩ | ⟨fault, -, rfl | rfl⟩
  · exact hrun
  · exact h
  · exact hrun

theorem Sound.publish (announcement : Announcement) :
    Sound sequence fulfilled (s.publish token announcement) := by
  have hpublished : Sound sequence fulfilled
      { s with published := announcement :: s.published } :=
    h.same rfl (fun _ hmem => List.mem_cons_of_mem _ hmem) id id h.back
  refine hpublished.noted fun record hrecord hreturned => ?_
  obtain ⟨-, hready, hfinalization, hexpected, hread⟩ := hpublished.records token record hrecord
  cases announcement with
  | ready =>
    exact ⟨fun h => absurd (hreturned.symm.trans h) Bool.false_ne_true,
      fun _ => List.mem_cons_self, hfinalization, hexpected, hread⟩
  | finalization last =>
    exact ⟨fun h => absurd (hreturned.symm.trans h) Bool.false_ne_true, hready,
      fun _ => ⟨last, List.mem_cons_self⟩, hexpected, hread⟩

theorem Sound.markRecording (update : Recording) :
    Sound sequence fulfilled (s.markRecording token update) := by
  have hmarked : Sound sequence fulfilled
      { s with recording := s.recording.map update.over } :=
    h.same rfl (fun _ hmem => hmem) id id h.back
  refine hmarked.noted fun record hrecord hreturned => ?_
  obtain ⟨-, hready, hfinalization, hexpected, hread⟩ := hmarked.records token record hrecord
  exact ⟨fun h => absurd (hreturned.symm.trans h) Bool.false_ne_true, hready, hfinalization,
    hexpected, hread⟩

theorem Sound.heard :
    Sound sequence fulfilled
      (s.noted token fun record => { record with read := some s.session.conversation }) := by
  refine h.noted fun record hrecord hreturned => ?_
  obtain ⟨-, hready, hfinalization, hexpected, -⟩ := h.records token record hrecord
  refine ⟨fun h => absurd (hreturned.symm.trans h) Bool.false_ne_true, hready, hfinalization,
    hexpected, ?_⟩
  rintro conversation ⟨⟩
  exact hexpected

theorem Sound.returned
    (hfulfilled : ∀ record, s.completers token = some record →
      fulfilled { record with returned := true }) :
    Sound sequence fulfilled (s.noted token fun record => { record with returned := true }) := by
  refine h.noted fun record hrecord _ => ?_
  obtain ⟨-, hready, hfinalization, hexpected, hread⟩ := h.records token record hrecord
  exact ⟨fun _ => hfulfilled record hrecord, hready, hfinalization, hexpected, hread⟩

theorem Sound.performed {β : Type} {command : AttemptCommand β} {reply : β}
    (hcommand : Allowed True command) (hunused : Unused s) (hturn : inTurn sequence command s s')
    (hstep : performs sequence token command s reply s') :
    Sound sequence fulfilled s' := by
  have hsame : ∀ {s' : State}, s'.completers = s.completers → s'.published = s.published →
      s'.session = s.session → (s'.copies = [] → AllReturned s) → Sound sequence fulfilled s' := by
    intro s' hrecords hpublished hsession hcopies
    exact h.same hrecords (fun _ hmem => hpublished ▸ hmem) (fun hset => hsession ▸ hset)
      (fun hcompleted => hsession ▸ hcompleted) hcopies
  cases command with
  | acquire => cases hcommand
  | stillOwned => cases hcommand
  | repository command =>
    obtain ⟨session, hperformed, rfl⟩ := hstep
    have hmove : HandlerMove True s.session session :=
      move_of_performed hcommand trivial hperformed
    have hsession : ((s.reached sequence token session).heard token command reply).session =
        session := by
      unfold State.heard
      split <;> rfl
    rw [inTurn, hsession] at hturn
    have hreached : Sound sequence fulfilled (s.reached sequence token session) :=
      h.reached hmove hturn
    unfold State.heard
    split
    · next conversation =>
      obtain ⟨rfl, hreply⟩ := performed_getConversation hperformed
      rw [reached_self, hreply conversation rfl]
      exact h.heard
    · exact hreached
  | work stage => exact hstep ▸ h
  | transcribe => exact hstep ▸ h
  | markRecording update => exact h.comes (h.markRecording update) hstep
  | countProcessed => exact h.comes (hsame rfl rfl rfl h.back) hstep
  | publish announcement => exact h.comes (h.publish announcement) hstep
  | lost => exact hstep ▸ h
  | remember => exact hstep ▸ hsame rfl rfl rfl h.back
  | retry attempt =>
    exact h.comes (hsame rfl rfl rfl fun hempty => absurd hempty (List.cons_ne_nil _ _)) hstep
  | deadLetter => exact hstep ▸ h
  | acknowledge attempt =>
    have hcopies : (s.acknowledge attempt).copies = [] → AllReturned s := fun hempty =>
      allReturned_of_back hunused (hturn hempty)
    exact h.comes (hsame rfl rfl rfl hcopies) hstep

theorem Sound.elsewhere (hmove : Elsewhere sequence s s') : Sound sequence fulfilled s' :=
  h.same hmove.completers hmove.published hmove.expected hmove.completed fun hempty =>
    h.back (hmove.copies ▸ hempty)

end

end Soundness
section Messages

variable {condition : Condition} {inv : State → Prop} {record : Option Completer} {job : Job}

/-- What is to be shown of a handler and of an invariant besides `Sound`. -/
structure Handling (job : Job) (handler : Delivery → Attempting Bool) (condition : Condition)
    (fulfilled : Completer → Prop) (extra : State → Prop) : Prop where
  turn : ∀ {β : Type} {command : AttemptCommand β} {s s' : State},
    condition.attempts command s s' → inTurn job.sequence command s s'
  performed : ∀ {β : Type} {token : Nat} {command : AttemptCommand β} {s : State} {reply : β}
    {s' : State}, Allowed True command → condition.attempts command s s' →
      performs job.sequence token command s reply s' → extra s → extra s'
  returned : ∀ {token : Nat} {s : State}, extra s →
    extra (s.noted token fun record => { record with returned := true })
  granted : ∀ {s : State}, condition.attempts .acquire s s.grant → Unused s → extra s →
    extra s.grant
  elsewhere : ∀ {s s' : State}, condition.others s s' → Elsewhere job.sequence s s' → extra s →
    extra s'
  handled : ∀ (delivery : Delivery) {token : Nat}, token ≠ 0 →
    Holds (under token (conditioned condition job.sequence))
      (Kept fun s => Sound job.sequence fulfilled s ∧ extra s)
      (fun outcome held => held.1 = token ∧ ∀ settled, outcome = .ok settled →
        ∀ record, held.2 = some record → fulfilled { record with returned := true })
      (token, none) (handler delivery).run

namespace Handling

variable {handler : Delivery → Attempting Bool} {fulfilled : Completer → Prop}
  {extra : State → Prop}

section

variable (h : Handling job handler condition fulfilled extra)

include h

theorem keeps : Keeps condition job.sequence fun s => Sound job.sequence fulfilled s ∧ extra s := by
  rintro β token command s reply s' hcommand hcondition hstep hunused ⟨hsound, hextra⟩
  exact ⟨hsound.performed hcommand hunused (h.turn hcondition) hstep,
    h.performed hcommand hcondition hstep hextra⟩

theorem stillOwned
    (hfulfilled : ∀ completer, record = some completer →
      fulfilled { completer with returned := true })
    (htoken : token ≠ 0) :
    Holds (under token (conditioned condition job.sequence))
      (Kept fun s => Sound job.sequence fulfilled s ∧ extra s) (fun _ held => held.1 = token)
      (token, record) (ask .stillOwned).run := by
  rw [ask, ExceptT.run_mk]
  refine Holds.issue_bind fun others s owned s' hkept hstep => ?_
  obtain ⟨-, rfl⟩ := hstep
  have hrecord := hkept.records _ List.mem_cons_self htoken
  refine ⟨_, hkept.own ⟨hkept.state.1.returned fun completer hcompleter => ?_,
    h.returned hkept.state.2⟩ rfl fun _ hne => noted_other hne, rfl⟩
  exact hfulfilled completer (hrecord.symm.trans hcompleter)

theorem settle (delivery : Delivery) (htoken : token ≠ 0) :
    Holds (under token (conditioned condition job.sequence))
      (Kept fun s => Sound job.sequence fulfilled s ∧ extra s) (fun _ held => held.1 = token)
      (token, none) (settle handler delivery).run := by
  refine Holds.raising_then _ (h.handled delivery htoken) ?_ fun _ _ hmiddle => hmiddle.1
  rintro settled ⟨token', record⟩ ⟨rfl, hfulfilled⟩
  refine Holds.raising_then _ (h.stillOwned (hfulfilled settled rfl) htoken) ?_ fun _ _ h => h
  rintro owned ⟨token', record⟩ rfl
  refine holds_any h.keeps ?_
  split
  · split
    · refine Issues.raising_bind (issues_ask trivial) fun stored => ?_
      split
      · exact issues_call trivial
      · trivial
    · exact issues_call trivial
  · trivial

theorem processLeased (delivery : Delivery) (htoken : token ≠ 0) :
    Holds (under token (conditioned condition job.sequence))
      (Kept fun s => Sound job.sequence fulfilled s ∧ extra s) (fun _ held => held.1 = token)
      (token, none) (processLeased job handler delivery).run := by
  refine Holds.attempt_then (h.settle delivery htoken) ?_
  rintro outcome ⟨token', record⟩ rfl
  refine holds_any h.keeps ?_
  rcases outcome with fault | -
  · dsimp only
    split
    · trivial
    · refine Issues.raising_bind (issues_ask trivial) fun lost => ?_
      split
      · trivial
      · exact (issues_handleFailure delivery fault).mono fun _ => Allowed.weaken
  · trivial

theorem processMessage (delivery : Delivery) :
    Holds (conditioned condition job.sequence)
      (Kept fun s => Sound job.sequence fulfilled s ∧ extra s) (fun _ _ => True) (0, none)
      (processMessage job handler delivery) := by
  refine Holds.issue_bind fun others s lease s' hkept hstep => ?_
  obtain ⟨hcondition, hlease⟩ := hstep
  rcases hlease with ⟨rfl, rfl⟩ | ⟨rfl, -, rfl⟩ | ⟨hlease, rfl⟩
  · -- The token is new.
    have hgranted := h.granted hcondition hkept.fresh hkept.state.2
    refine ⟨(s.tokens + 1, none), ⟨⟨?_, hgranted⟩, ?_, ?_, ?_, ?_⟩, ?_⟩
    · exact hkept.state.1.same rfl (fun _ hmem => hmem) id id hkept.state.1.back
    · obtain ⟨-, hrest⟩ := List.pairwise_cons.mp hkept.distinct
      refine List.pairwise_cons.mpr ⟨fun held hmem hsame => ?_, hrest⟩
      have hbound := hkept.bound held (List.mem_cons_of_mem _ hmem)
      exact absurd hbound (by omega)
    · intro held hmem hne
      rcases List.mem_cons.mp hmem with rfl | hother
      · exact hkept.fresh _ (Nat.lt_succ_self _)
      · exact hkept.records held (List.mem_cons_of_mem _ hother) hne
    · intro held hmem
      rcases List.mem_cons.mp hmem with rfl | hother
      · exact Nat.le_refl _
      · exact Nat.le_succ_of_le (hkept.bound held (List.mem_cons_of_mem _ hother))
    · exact fun other hlt => hkept.fresh other (Nat.lt_of_succ_lt hlt)
    · exact (h.processLeased delivery (Nat.succ_ne_zero _)).labelled.then fun _ _ _ => trivial
  · have hacknowledge := (issues_call trivial :
      (call (.acknowledge delivery.attempt)).run.Issues (Allowed True))
    exact ⟨(0, none), hkept, (holds_any h.keeps hacknowledge).labelled.then fun _ _ _ => trivial⟩
  · refine ⟨(0, none), hkept, ?_⟩
    rcases hlease with rfl | rfl
    · trivial
    · trivial

theorem spawned {holdings : List Held} {prog : Program AttemptCommands Unit}
    (hkept : Kept (fun s => Sound job.sequence fulfilled s ∧ extra s) holdings s)
    (hspawn : Deliveries job handler s prog) :
    ∃ held, Holds (conditioned condition job.sequence)
      (Kept fun s => Sound job.sequence fulfilled s ∧ extra s) (fun _ _ => True) held prog ∧
      Kept (fun s => Sound job.sequence fulfilled s ∧ extra s) (held :: holdings) s := by
  obtain ⟨delivery, -, rfl⟩ := hspawn
  refine ⟨(0, none), h.processMessage delivery, hkept.state, ?_, ?_, ?_, hkept.fresh⟩
  · exact List.pairwise_cons.mpr ⟨fun _ _ _ => rfl, hkept.distinct⟩
  · intro held hmem hne
    rcases List.mem_cons.mp hmem with rfl | hother
    · exact absurd rfl hne
    · exact hkept.records held hother hne
  · intro held hmem
    rcases List.mem_cons.mp hmem with rfl | hother
    · exact Nat.zero_le _
    · exact hkept.bound held hother

theorem moved {holdings : List Held}
    (hkept : Kept (fun s => Sound job.sequence fulfilled s ∧ extra s) holdings s)
    (hmove : Others condition job.sequence s s') :
    Kept (fun s => Sound job.sequence fulfilled s ∧ extra s) holdings s' := by
  obtain ⟨hothers, hmove⟩ := hmove
  refine ⟨⟨hkept.state.1.elsewhere hmove, h.elsewhere hothers hmove hkept.state.2⟩,
    hkept.distinct, ?_, ?_, ?_⟩
  · intro held hmem hne
    rw [hmove.completers]
    exact hkept.records held hmem hne
  · intro held hmem
    rw [hmove.tokens]
    exact hkept.bound held hmem
  · intro other hlt
    rw [hmove.completers]
    exact hkept.fresh other (hmove.tokens ▸ hlt)

theorem run {start : State} (hstart : Requested job.sequence start) (hextra : extra start)
    {pool : AttemptPool} (hrun : AttemptRun job handler condition start pool) :
    Sound job.sequence fulfilled pool.shared ∧ extra pool.shared := by
  have hsound : Sound job.sequence fulfilled start :=
    ⟨fun token record hrecord => by simp [hstart.completers token] at hrecord,
      fun hcompleted => absurd (hstart.completed.symm.trans hcompleted) Bool.false_ne_true,
      fun hcopies => absurd hcopies hstart.copies⟩
  have hnone : Kept (fun s => Sound job.sequence fulfilled s ∧ extra s) [] start :=
    ⟨⟨hsound, hextra⟩, .nil, fun _ hmem => absurd hmem List.not_mem_nil,
      fun _ hmem => absurd hmem List.not_mem_nil, fun token _ => hstart.completers token⟩
  have hheld : pool.Held (conditioned condition job.sequence)
      (Kept fun s => Sound job.sequence fulfilled s ∧ extra s) := by
    apply Pool.Run.held _ _ _ hnone hrun
    · exact fun _ _ _ hperm hkept => hkept.perm hperm
    · exact fun _ _ _ hkept hspawn => h.spawned hkept hspawn
    · exact fun _ _ _ hkept hmove => h.moved hkept hmove
  obtain ⟨holdings, -, hkept⟩ := hheld
  exact hkept.state

end

end Handling

end Messages

def sampleJob : Job where
  sequence := 1
  maxRetries := 3
  classify _ _ := ⟨false, "", "", ""⟩

def sampleSession : Session.State where
  conversation := some { expectedLastSequence := some 1, status := .stopRequested }
  chunks := [{ chunkId := "c1", sequenceNumber := 1, updatedAt := 0 }]
  windows := []
  ordered := .nil

def deliveries (handler : Delivery → Attempting Bool) (count : Nat) (start : State) : AttemptPool :=
  ⟨List.replicate count (processMessage sampleJob handler { attempt := 0, now := 0 }), start⟩

def deliveriesAfter (handler : Delivery → Attempting Bool) (count : Nat) (order : List Nat)
    (start : State) : AttemptPool :=
  (deliveries handler count start).turns (attemptAnswer 1) order

/-- `inTurn`, as a test. -/
def checkInTurn {β : Type} (command : AttemptCommands β) (s : State) : Bool :=
  match command.command with
  | .acknowledge attempt => s.copies.erase attempt ≠ [] || decide s.Back
  | .repository _ =>
    completedIn 1 s.session || !completedIn 1 (attemptAnswer 1 command s).2.session ||
      s.copies ≠ []
  | _ => true

theorem inTurn_of_check {β : Type} (command : AttemptCommands β) (s : State)
    (h : checkInTurn command s = true) :
    inTurn 1 command.command s (attemptAnswer 1 command s).2 := by
  obtain ⟨token, command⟩ := command
  cases command with
  | acknowledge attempt =>
    intro hempty
    simpa [checkInTurn, hempty] using h
  | repository command =>
    intro hopen hcompleted
    simpa [checkInTurn, hopen, hcompleted] using h
  | _ => trivial

section Schedules

variable {handler : Delivery → Attempting Bool} {condition : Condition} {start : State}

theorem deliveries_run (hcopies : 0 ∈ start.copies) {count : Nat} :
    AttemptRun sampleJob handler condition start (deliveries handler count start) := by
  induction count with
  | zero => exact .refl
  | succ count ih => exact ih.tail (.spawn ⟨_, hcopies, rfl⟩)

theorem deliveriesAfter_run (check : ∀ {β : Type}, AttemptCommands β → State → Bool)
    (hcheck : ∀ {β : Type} (command : AttemptCommands β) s, check command s = true →
      condition.attempts command.command s (attemptAnswer 1 command s).2)
    (hcopies : 0 ∈ start.copies) (count : Nat) (order : List Nat)
    (h : (deliveries handler count start).turnsPass (attemptAnswer 1) check order = true) :
    AttemptRun sampleJob handler condition start (deliveriesAfter handler count order start) := by
  refine (deliveries_run hcopies).trans (Pool.turns_run check ?_ order _ h)
  exact fun command s hpass => ⟨hcheck command s hpass, performs_answer 1 command s⟩

end Schedules

end AiBuddy.Transcription
