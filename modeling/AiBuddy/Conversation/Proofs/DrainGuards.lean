import AiBuddy.Conversation.Proofs.Drain

/-!
# The two drain guards

`finalize` counts through the expected last sequence number, `run` counts everything. Where
`finalize` has set READY_FOR_PROCESSING no window blocks the drain, so `run` defers exactly for a
chunk that lies beyond.
-/

namespace AiBuddy.Conversation.Session

open Program

variable {s s' : State} {α β : Type}

abbrev alone : Semantics (Remote Mongo.Error Command) State := Remote.semantics Performed

def SameParts (s s' : State) : Prop := s'.chunks = s.chunks ∧ s'.windows = s.windows

def State.expectedLast (s : State) : Option Int :=
  s.conversation.bind ConversationDocument.expectedLastSequence

abbrev AloneSafe (post : α → State → Prop) (prog : Program (Remote Mongo.Error Command) α)
    (s : State) : Prop :=
  Safe alone Eq (fun _ _ _ => True) post prog s

theorem inv_safe {allowed : ∀ {β : Type}, Remote Mongo.Error Command β → Prop}
    {inv : State → Prop} {prog : Program (Remote Mongo.Error Command) α} (h : prog.Issues allowed)
    (hkeeps : ∀ {β : Type} (command : Remote Mongo.Error Command β) s reply s', allowed command →
      inv s → alone command s reply s' → inv s')
    (hs : inv s) : AloneSafe (fun _ s' => inv s') prog s := by
  induction prog generalizing s with
  | ret value => exact hs
  | call command next ih =>
    rintro s₁ reply s₂ rfl hstep
    exact ⟨trivial, ih reply (h.2 reply) (hkeeps command _ reply _ h.1 hs hstep)⟩

theorem read_safe {command : Command β} {value : State → β} {f : β → Operating α}
    {post : Except StatusError α → State → Prop}
    (hread : ∀ choice s, State.run choice command s = (.ok (value s), s))
    (hok : AloneSafe post (f (value s)).run s) (herror : ∀ error, post (.error error) s) :
    AloneSafe post (sent command >>= f).run s := by
  refine Safe.send_bind ?_
  rintro s₁ reply s₂ rfl ⟨choice, hanswers⟩
  have hstate := hanswers.state
  rw [hread, or_self] at hstate
  subst hstate
  refine ⟨trivial, ?_, fun error _ => herror _⟩
  rintro found rfl
  have hrun := hanswers.of_ok
  rw [hread] at hrun
  obtain rfl := Except.ok.inj (Prod.mk.inj hrun).1
  exact hok

def Spares (windows : Prop) (command : Remote Mongo.Error Command β) : Prop :=
  match command with
  | .send (.updateChunk ..) | .send (.insertChunk _) => False
  | .send (.insertWindow _) | .send (.updateWindow ..) => windows
  | .send _ => True

theorem Spares.same {windows : Prop} {command : Remote Mongo.Error Command β} {reply : β}
    (h : Spares windows command) (hstep : alone command s reply s') :
    s'.chunks = s.chunks ∧ (¬ windows → s'.windows = s.windows) := by
  rcases command with ⟨command⟩
  obtain ⟨choice, hanswers⟩ : Performed command s reply s' := hstep
  rcases hanswers.state with rfl | rfl
  · exact ⟨rfl, fun _ => rfl⟩
  cases command with
  | updateChunk | insertChunk => exact h.elim
  | insertWindow window =>
    refine ⟨?_, fun hnot => absurd h hnot⟩
    dsimp only [State.run, State.insertWindow]
    split <;> rfl
  | updateWindow => exact ⟨rfl, fun hnot => absurd h hnot⟩
  | updateConversation accepts change token =>
    dsimp only [State.run, State.updateConversation]
    split
    · split <;> exact ⟨rfl, fun _ => rfl⟩
    · exact ⟨rfl, fun _ => rfl⟩
  | _ => exact ⟨rfl, fun _ => rfl⟩

theorem parts_safe {prog : Program (Remote Mongo.Error Command) α}
    (h : prog.Issues (Spares False)) : AloneSafe (fun _ s' => SameParts s s') prog s := by
  refine inv_safe h ?_ ⟨rfl, rfl⟩
  intro β command s₁ reply s₂ hcommand hs hstep
  obtain ⟨hchunks, hwindows⟩ := hcommand.same hstep
  exact ⟨hchunks.trans hs.1, (hwindows id).trans hs.2⟩

theorem transition_spares (holding : Holding) (target : ConversationStatus)
    (updates : ConversationDocument → ConversationDocument) (now : Int) :
    (transition holding target updates now).run.Issues (Spares False) :=
  transition_issues holding updates now trivial fun _ _ _ _ => trivial

def State.Unready (s : State) : Prop := s.status? ≠ some .readyForProcessing

theorem unready_of_command {ready : Prop} {command : Remote Mongo.Error Command β} {reply : β}
    (hcommand : FinalizeCommand ready command) (hready : ¬ ready) (hs : s.Unready)
    (hstep : alone command s reply s') : s'.Unready := by
  rcases command with ⟨command⟩
  intro hstatus
  have hmove : Move FinalizeChunk (FinalizeConversation ready) (fun _ _ => True) s s' :=
    move_of_performed hcommand.1 trivial hstep
  exact (hmove.ready hstatus).elim hs hready

theorem unready_safe {ready : Prop} {prog : Program (Remote Mongo.Error Command) α}
    (h : prog.Issues (FinalizeCommand ready)) (hready : ¬ ready) (hs : s.Unready) :
    AloneSafe (fun _ s' => s'.Unready) prog s :=
  inv_safe h (fun _ _ _ _ hcommand hs hstep => unready_of_command hcommand hready hs hstep) hs

variable {settings : Settings} {request : FinalizeCall} {drained : Drained} {unwindowed : Nat}
  {windows : List Window}

def Drains (last : Int) (s : State) : Prop :=
  ¬ s.Unready → s.chunks.countP (Chunk.counts (some last)) = 0 ∧
    s.windows.filter Window.incomplete = []

theorem State.Unready.drains {last : Int} (hs : s.Unready) : Drains last s :=
  fun hnot => absurd hs hnot

theorem settleListed_spares (hincomplete : windows.filter Window.incomplete = [])
    (hgaps : windows.filter Window.persistenceGap = []) :
    (settleListed settings request drained unwindowed windows).run.Issues (Spares False) := by
  have htransition : ∀ {target : ConversationStatus}
      {updates : ConversationDocument → ConversationDocument}, KeepsStatus updates →
      (safeTransition request.transition target updates request.now).run.Issues (Spares False) :=
    fun hupdates => safeTransition_issues _ _ hupdates trivial fun _ _ _ _ => trivial
  unfold settleListed
  dsimp only
  rw [hincomplete, hgaps]
  refine Issues.raising_bind trivial fun _ => ?_
  refine Issues.raising_bind (Issues.send trivial) fun chunks => ?_
  refine Issues.raising_bind (Issues.raising_bind (Issues.send trivial) fun _ => trivial)
    fun _ => ?_
  split
  · split
    · exact Issues.raising_bind (htransition (keepsStatus_setMissing _)) fun _ => trivial
    · trivial
  · rw [if_neg (not_not.mpr rfl)]
    unfold publishReady
    split
    · exact Issues.raising_bind (htransition keepsStatus_id) fun _ => trivial
    · refine Issues.raising_bind (Issues.send trivial) fun _ => ?_
      refine Issues.raising_bind (htransition (keepsStatus_setMissing _)) fun transitioned => ?_
      split
      · exact Issues.send trivial
      · trivial

theorem settleListed_safe (hs : s.Unready)
    (hcount : s.chunks.countP (Chunk.counts (some drained.expectedLast)) = unwindowed) :
    AloneSafe (fun _ => Drains drained.expectedLast)
      (settleListed settings request drained unwindowed s.windows).run s := by
  by_cases hready : unwindowed = 0 ∧ s.windows.filter Window.incomplete = [] ∧
      s.windows.filter Window.persistenceGap = []
  · obtain ⟨hnone, hincomplete, hgaps⟩ := hready
    refine (parts_safe (settleListed_spares hincomplete hgaps)).mono fun _ s' hsame _ => ⟨?_, ?_⟩
    · rw [hsame.1, hcount, hnone]
    · rw [hsame.2, hincomplete]
  · exact (unready_safe issues_settleListed hready hs).mono fun _ _ => State.Unready.drains

theorem reclaim_safe {staleBefore now : Int} (hs : s.Unready) :
    AloneSafe (fun _ s' => s'.Unready ∧ s'.chunks = s.chunks)
      (reclaimStaleProcessingWindows staleBefore now).run s := by
  have hissues : ∀ windowIds, (reclaimWindows staleBefore now windowIds).run.Issues
      fun command => FinalizeCommand False command ∧ Spares True command := by
    intro windowIds
    induction windowIds with
    | nil => trivial
    | cons windowId rest ih =>
      exact Issues.raising_bind (Issues.send ⟨⟨trivial, fun _ => trivial⟩, trivial⟩) fun _ => ih
  refine read_safe (fun _ _ => rfl) (inv_safe (hissues _) ?_ ⟨hs, rfl⟩) fun _ => ⟨hs, rfl⟩
  intro β command s₁ reply s₂ hcommand hs hstep
  exact ⟨unready_of_command hcommand.1 id hs.1 hstep, (hcommand.2.same hstep).1.trans hs.2⟩

theorem settle_safe (henabled : settings.enableIncrementalMeetingProcessing = true)
    (hs : s.Unready) :
    AloneSafe (fun _ => Drains drained.expectedLast) (settle settings request drained).run s := by
  rw [settle, if_pos henabled]
  refine Safe.raising_bind (read_safe (fun _ _ => rfl) ?_ fun _ => hs.drains)
  refine read_safe (fun _ _ => rfl) ?_ fun _ => hs.drains
  refine Safe.then (reclaim_safe hs) ?_ fun _ _ h => h.1.drains
  rintro - s' ⟨hs', hchunks⟩
  refine read_safe (fun _ _ => rfl) (settleListed_safe hs' ?_) fun _ => hs'.drains
  rw [hchunks]

def Handed (last : Option Int) (outcome : Except StatusError (Option Drained)) (s : State) : Prop :=
  s.Unready ∧ ∀ drained, outcome = .ok (some drained) → last = some drained.expectedLast

theorem handed_error {last : Option Int} (hs : s.Unready) (error : StatusError) :
    Handed last (.error error) s := by
  refine ⟨hs, fun drained h => ?_⟩
  cases h

theorem handed_none {last : Option Int} (hs : s.Unready) : Handed last (.ok none) s := by
  refine ⟨hs, fun drained h => ?_⟩
  cases h

theorem drain_skip {last : Option Int} {prog : Operating α} {f : α → Operating (Option Drained)}
    (hs : s.Unready) (hissues : prog.run.Issues (FinalizeCommand False))
    (hnext : ∀ value s', s'.Unready → AloneSafe (Handed last) (f value).run s') :
    AloneSafe (Handed last) (prog >>= f).run s :=
  Safe.then (unready_safe hissues id hs) hnext fun error _ hs' => handed_error hs' error

theorem drain_safe (hs : s.Unready) :
    AloneSafe (Handed s.expectedLast) (drain settings request).run s := by
  refine read_safe (fun _ _ => rfl) ?_ fun _ => handed_error hs _
  unfold State.expectedLast
  rcases s.conversation with _ | conversation
  · exact handed_error hs _
  dsimp only [Option.bind_some]
  generalize conversation.expectedLastSequence = expected
  rcases expected with _ | last
  · exact handed_error hs _
  dsimp only
  split
  · exact handed_none hs
  refine read_safe (fun _ _ => rfl) ?_ fun _ => handed_error hs _
  refine read_safe (fun _ _ => rfl) ?_ fun _ => handed_error hs _
  refine drain_skip hs (issues_persistAccounting _) fun _ s' hs' => ?_
  split
  · exact drain_skip hs' issues_waitForTranscripts fun _ s' hs' => handed_none hs'
  · split
    · refine drain_skip hs' issues_close fun _ s' hs' => ⟨hs', ?_⟩
      rintro _ ⟨rfl⟩
      rfl
    · refine ⟨hs', ?_⟩
      rintro _ ⟨rfl⟩
      rfl

theorem finalize_safe (henabled : settings.enableIncrementalMeetingProcessing = true)
    (hs : s.Unready) :
    AloneSafe (fun _ s' => s'.Unready ∨ ∃ last, s.expectedLast = some last ∧ Drains last s')
      (finalize settings request).run s := by
  refine Safe.then (drain_safe hs) ?_ fun _ _ h => .inl h.1
  rintro (_ | drained) s' ⟨hs', hlast⟩
  · exact .inl hs'
  · exact (settle_safe henabled hs').mono fun _ _ h => .inr ⟨_, hlast drained rfl, h⟩

/-- Nothing makes the drain guard of `run` defer. -/
def NothingPends (settings : Settings) (s : State) : Prop :=
  settings.enableIncrementalMeetingProcessing = true →
    s.chunks.countP (Chunk.counts none) = 0 ∧ s.windows.filter Window.incomplete = []

theorem NothingPends.same (hs : NothingPends settings s) (h : SameParts s s') :
    NothingPends settings s' := by
  unfold NothingPends
  rw [h.1, h.2]
  exact hs

def NotDeferred (outcome : Except StatusError Processing) (_ : State) : Prop :=
  outcome ≠ .ok .deferred

theorem process_skip {prog : Operating α} {f : α → Operating Processing}
    (hissues : prog.run.Issues (Spares False)) (hs : NothingPends settings s)
    (hnext : ∀ value s', NothingPends settings s' → AloneSafe NotDeferred (f value).run s') :
    AloneSafe NotDeferred (prog >>= f).run s :=
  Safe.then (parts_safe hissues) (fun value s' h => hnext value s' (hs.same h)) fun _ _ _ => nofun

theorem drainPending_safe (hs : NothingPends settings s) :
    AloneSafe (fun outcome _ => ∀ pending, outcome = .ok pending → pending = false)
      (drainPending settings).run s := by
  unfold drainPending
  split
  · next henabled =>
    refine read_safe (fun _ _ => rfl) (Safe.raising_bind ?_) nofun
    refine read_safe (fun _ _ => rfl) ?_ nofun
    rintro _ ⟨rfl⟩
    rw [(hs henabled).1, (hs henabled).2]
    rfl
  · rintro _ ⟨rfl⟩
    rfl

theorem processDrained_safe {call : ProcessCall} {conversation : ConversationDocument}
    (hs : NothingPends settings s) :
    AloneSafe NotDeferred (processDrained settings call conversation).run s := by
  unfold processDrained
  split
  · refine process_skip trivial hs fun _ s' hs' => ?_
    refine process_skip (transition_spares _ _ _ _) hs' fun _ s' hs' => ?_
    refine Safe.then (drainPending_safe hs') ?_ fun _ _ _ => nofun
    intro pending s' hpending
    rw [hpending pending rfl]
    exact nofun
  · exact nofun

theorem processConversation_safe {call : ProcessCall} (hs : NothingPends settings s) :
    AloneSafe NotDeferred (processConversation settings call).run s := by
  refine read_safe (fun _ _ => rfl) ?_ nofun
  rcases s.conversation with _ | conversation
  · exact nofun
  dsimp only
  split
  · exact nofun
  refine process_skip trivial hs fun _ s' hs' => ?_
  split
  · exact process_skip (Issues.send trivial) hs' fun _ _ _ => nofun
  · split
    · exact process_skip (transition_spares _ _ _ _) hs' fun _ _ hs' => processDrained_safe hs'
    · exact processDrained_safe hs'

theorem processConversation_defers (henabled : settings.enableIncrementalMeetingProcessing = true)
    (hready : s.status? = some .readyForProcessing)
    (hcount : s.chunks.countP (Chunk.counts none) ≠ 0) :
    ((processConversation settings { now := 0 }).run.eval answer s).1 = .ok .deferred := by
  obtain ⟨found, chunks, windows, next, increasing, ordered⟩ := s
  rcases found with _ | conversation
  · cases hready
  obtain ⟨status⟩ := conversation
  obtain rfl : status = .readyForProcessing := Option.some.inj hready
  have hpending : ∀ found, (drainPending settings).run.eval answer
      ⟨found, chunks, windows, next, increasing, ordered⟩ =
        (.ok true, ⟨found, chunks, windows, next, increasing, ordered⟩) := by
    intro found
    rw [drainPending, if_pos henabled]
    show (Except.ok (decide (chunks.countP (Chunk.counts none) ≠ 0) || _), _) = _
    rw [decide_eq_true hcount, Bool.true_or]
    rfl
  refine (congrArg Prod.fst (eval_bind_ok (hpending _))).trans ?_
  rfl

theorem answer_alone {command : Remote Mongo.Error Command β} :
    alone command s (answer command s).1 (answer command s).2 := by
  rcases command with ⟨command⟩
  exact ⟨0, .answered⟩

/-- After `finalize` has set READY_FOR_PROCESSING no run defers, exactly if no chunk that `run`
would count lies beyond the expected last sequence number. -/
theorem drain_guards_agree_iff (settings : Settings) (request : FinalizeCall) {s s' : State}
    {outcome : Except StatusError Unit} (hbefore : s.status? ≠ some .readyForProcessing)
    (hrun : Reach alone Eq (finalize settings request).run s (.ret outcome) s')
    (hready : s'.status? = some .readyForProcessing) :
    (∀ call t t', SameParts s' t →
        ¬ Reach alone Eq (processConversation settings call).run t (.ret (.ok .deferred)) t') ↔
      (settings.enableIncrementalMeetingProcessing = true → ∀ chunk ∈ s'.chunks,
        chunk.counts none = true → ∀ last, s.expectedLast = some last →
          (chunk.sequenceNumber : Int) ≤ last) := by
  have htrans : ∀ s₁ s₂ s₃ : State, s₁ = s₂ → s₂ = s₃ → s₁ = s₃ := fun _ _ _ => Eq.trans
  constructor
  · intro h henabled chunk hmem hcounts last hlast
    by_contra hbeyond
    have hcount : s'.chunks.countP (Chunk.counts none) ≠ 0 :=
      fun hnone => List.countP_eq_zero.mp hnone chunk hmem hcounts
    have hreach : Reach alone Eq (processConversation settings { now := 0 }).run s'
        (.ret ((processConversation settings { now := 0 }).run.eval answer s').1) _ :=
      reach_eval (fun _ _ => answer_alone) _ _
    rw [processConversation_defers henabled hready hcount] at hreach
    exact h _ _ _ ⟨rfl, rfl⟩ hreach
  · intro h call t t' hsame hreach
    have hpends : NothingPends settings s' := by
      intro henabled
      have hfinal := Safe.returned htrans (fun _ => rfl) (fun _ _ _ hpost hsame => hsame ▸ hpost)
        (finalize_safe henabled hbefore) hrun
      obtain hunready | ⟨last, hlast, hdrains⟩ := hfinal
      · exact absurd hready hunready
      obtain ⟨hcount, hincomplete⟩ := hdrains (not_not.mpr hready)
      refine ⟨List.countP_eq_zero.mpr fun chunk hmem hcounts => ?_, hincomplete⟩
      have hthrough := h henabled chunk hmem hcounts last hlast
      refine List.countP_eq_zero.mp hcount chunk hmem ?_
      simpa [Chunk.counts, Chunk.within, hthrough] using hcounts
    exact Safe.returned htrans (fun _ => rfl) (fun _ _ _ hpost _ => hpost)
      (processConversation_safe (hpends.same hsame)) hreach rfl

def sampleBeyond : State where
  conversation := some { status := .waitingForTranscripts, expectedLastSequence := some 0 }
  chunks :=
    [{ chunkId := "a", sequenceNumber := 0, rawText := some "hello", sttStatus := .completed
       updatedAt := 0 },
     { chunkId := "b", sequenceNumber := 1, rawText := some "late", sttStatus := .completed
       updatedAt := 0 }]
  windows := []
  ordered := sampleSession.ordered

def sampleBeyondReady := (finalize { } sampleFinalize).run.eval answer sampleBeyond

def sampleBeyondDeferred :=
  (processConversation { } { now := 0 }).run.eval answer sampleBeyondReady.2

theorem drain_guards_agree_iff_sample :
    (∀ call t t', SameParts sampleBeyondReady.2 t →
        ¬ Reach alone Eq (processConversation { } call).run t (.ret (.ok .deferred)) t') ↔
      (({ } : Settings).enableIncrementalMeetingProcessing = true →
        ∀ chunk ∈ sampleBeyondReady.2.chunks, chunk.counts none = true →
          ∀ last, sampleBeyond.expectedLast = some last → (chunk.sequenceNumber : Int) ≤ last) :=
  drain_guards_agree_iff { } sampleFinalize (by decide) (reach_eval (fun _ _ => answer_alone) _ _)
    (by decide +kernel)

theorem late_chunk_defers :
    sampleBeyond.status? = some .waitingForTranscripts ∧
      Reach alone Eq (finalize { } sampleFinalize).run sampleBeyond (.ret sampleBeyondReady.1)
        sampleBeyondReady.2 ∧
      sampleBeyondReady.2.status? = some .readyForProcessing ∧
      ∃ t', Reach alone Eq (processConversation { } { now := 0 }).run sampleBeyondReady.2
        (.ret (.ok .deferred)) t' := by
  refine ⟨by decide, reach_eval (fun _ _ => answer_alone) _ _, by decide +kernel,
    sampleBeyondDeferred.2, ?_⟩
  have hdeferred : sampleBeyondDeferred.1 = .ok .deferred :=
    processConversation_defers rfl (by decide +kernel) (by decide +kernel)
  exact hdeferred ▸ reach_eval (fun _ _ => answer_alone) _ _

end AiBuddy.Conversation.Session
