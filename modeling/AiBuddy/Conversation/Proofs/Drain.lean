import AiBuddy.Conversation.Proofs.Counters

/-!
# Transcripts that finalization loses

A chunk that is processed and has a text belongs to a window or is excluded, as long as no
completion comes upon one that was excluded before. What `finalize` has counted stays true until
it sets READY_FOR_PROCESSING, as long as no completion adds a text in between.
-/

namespace AiBuddy.Conversation.Session

open Program Queue.JobLease Queue.MongoFence

def Chunk.settled (chunk : Chunk) : Bool := chunk.unprocessed || chunk.accounted

variable {chunk : Chunk}

theorem accounted_of_open (h : chunk.sttStatus ≠ .completed) : chunk.accounted = true := by
  simp [Chunk.accounted, h]

variable {now : Int}

theorem exclude_accounted {reason : TranscriptExclusionReason} :
    (chunk.exclude reason now).accounted = true := by
  have hreason : reason.value ≠ "" := by cases reason <;> decide
  simp [Chunk.accounted, Chunk.exclude, Chunk.excluded, hreason]

variable {windowId : Nat}

theorem assign_accounted : (chunk.assign windowId now).accounted = true := by
  simp [Chunk.accounted, Chunk.assign]

variable {label : SessionLabel} {sequence : Nat} {accepts : Chunk → Bool}
  {change : Chunk → Chunk}

theorem ChunkUpdate.accounted (h : ChunkUpdate label sequence accepts change)
    (hlabel : ∀ k, label ≠ .complete k) (chunk : Chunk) : (change chunk).accounted = true := by
  cases h with
  | mark => exact accounted_of_open nofun
  | complete request => exact absurd rfl (hlabel _)
  | fail request => exact accounted_of_open nofun
  | reclaim => exact accounted_of_open nofun
  | exclude sequence reason now => exact exclude_accounted
  | assign sequence windowId now => exact assign_accounted

variable {s : State}

theorem ChunkUpdate.settled {token : Option Int} {found : Chunk}
    (h : ChunkUpdate label sequence accepts change)
    (hfound : s.findChunk sequence accepts token = some found)
    (hspares : sparesProcessed label (.updateChunk sequence accepts change token) s = true) :
    (change found).settled = true := by
  by_cases hlabel : ∀ k, label ≠ .complete k
  · rw [Chunk.settled, h.accounted hlabel, Bool.or_true]
  · cases h with
    | complete request =>
      rw [sparesProcessed, hfound, Option.all_some, Bool.or_eq_true, Bool.or_eq_true] at hspares
      rcases hspares with (hunprocessed | hwindow) | hblank
      · exact Bool.or_eq_true_iff.mpr (.inl hunprocessed)
      · have haccounted : (request.change found).processingWindowId.isSome = true := hwindow
        simp [Chunk.settled, Chunk.accounted, haccounted]
      · rw [Bool.not_eq_true'] at hblank
        simp [Chunk.settled, Chunk.accounted, hblank]
    | _ => exact absurd (fun k => nofun) hlabel

def Chunk.accountedThrough (last : Int) (chunk : Chunk) : Prop :=
  (chunk.sequenceNumber : Int) ≤ last → chunk.accounted = true

variable {last : Int}

theorem ChunkUpdate.accountedThrough {token : Option Int} {found : Chunk}
    (h : ChunkUpdate label sequence accepts change)
    (hfound : s.findChunk sequence accepts token = some found)
    (hspares : sparesUnwindowed last label (.updateChunk sequence accepts change token) s = true) :
    (found.written change token).accountedThrough last := by
  intro hlast
  have hlast : (found.sequenceNumber : Int) ≤ last := hlast
  show (change found).accounted = true
  by_cases hlabel : ∀ k, label ≠ .complete k
  · exact h.accounted hlabel found
  · cases h with
    | complete request =>
      rw [sparesUnwindowed, hfound, Option.all_some, Bool.or_eq_true, Bool.or_eq_true] at hspares
      rcases hspares with (hbeyond | hwindow) | hblank
      · exact absurd hlast (Int.not_le.mpr (of_decide_eq_true hbeyond))
      · have haccounted : (request.change found).processingWindowId.isSome = true := hwindow
        simp [Chunk.accounted, haccounted]
      · rw [Bool.not_eq_true'] at hblank
        simp [Chunk.accounted, hblank]
    | _ => exact absurd (fun k => nofun) hlabel

/-- The updates of chunks that `finalize` makes. -/
def FinalizeChunk (sequence : Nat) (accepts : Chunk → Bool) (change : Chunk → Chunk) : Prop :=
  ChunkUpdate .close sequence accepts change ∨ ChunkUpdate .reclaim sequence accepts change

def FinalizeConversation (ready : Prop) (change : ConversationDocument → ConversationDocument) :
    Prop :=
  ∀ conversation, (change conversation).status = .readyForProcessing →
    conversation.status = .readyForProcessing ∨ ready

/-- A command of `finalize`, which does neither that nor start the processing, unless it may. -/
abbrev FinalizeCommand (ready : Prop) {β : Type} (command : Remote Mongo.Error Command β) : Prop :=
  Permits FinalizeChunk (FinalizeConversation ready) command ∧ (¬ ready → Silent command)

section Issued

variable {ready : Prop}

theorem issues_close {settings : Settings} {request : CloseCall} :
    (closeReadyWindows settings request).run.Issues (FinalizeCommand ready) := by
  apply (issues_closeReadyWindows settings request).mono
  intro β command hcommand
  refine ⟨hcommand.1.mono (fun _ _ _ hchunk => .inl hchunk) ?_, fun _ => hcommand.2⟩
  intro change hchange
  cases hchange

theorem issues_reclaimStt {staleBefore : Int} :
    (reclaimStaleSttChunks staleBefore now).run.Issues (FinalizeCommand ready) := by
  apply (issues_reclaim staleBefore now).mono
  intro β command hcommand
  refine ⟨hcommand.1.mono (fun _ _ _ hchunk => .inr hchunk) ?_, fun _ => hcommand.2⟩
  intro change hchange
  cases hchange

theorem issues_emitEach {name : String} (h : name ≠ processingRequested) {count : Nat} :
    (emitEach name count).run.Issues (FinalizeCommand ready) := by
  induction count with
  | zero => trivial
  | succ count ih => exact Issues.raising_bind (Issues.send ⟨trivial, fun _ => h⟩) fun _ => ih

theorem transition_issues {allowed : ∀ {β : Type}, Remote Mongo.Error Command β → Prop}
    (holding : Holding) {target : ConversationStatus}
    (updates : ConversationDocument → ConversationDocument) (now : Int)
    (hread : allowed (.send .getConversation))
    (hupdate : ∀ accepts change token,
      (∀ conversation, (change conversation).status = (conversation : ConversationDocument).status ∨
        (change conversation).status = target) →
      allowed (.send (.updateConversation accepts change token))) :
    (transition holding target updates now).run.Issues allowed := by
  refine Issues.raising_bind trivial fun _ => ?_
  refine Issues.raising_bind (Issues.send hread) fun current => ?_
  rcases current with _ | current
  · trivial
  · dsimp only
    split
    · refine Issues.raising_bind (issues_fenced
        (fun token => hupdate _ _ token fun _ => .inr rfl) hread) fun result => ?_
      rcases result with _ | saved <;> trivial
    · trivial

def KeepsStatus (updates : ConversationDocument → ConversationDocument) : Prop :=
  ∀ conversation, (updates conversation).status = conversation.status

theorem keepsStatus_id : KeepsStatus id := fun _ => rfl

theorem keepsStatus_setMissing (missing : List Nat) : KeepsStatus (setMissing missing) :=
  fun _ => rfl

theorem safeTransition_issues {allowed : ∀ {β : Type}, Remote Mongo.Error Command β → Prop}
    (holding : Holding) {target : ConversationStatus}
    {updates : ConversationDocument → ConversationDocument} (now : Int)
    (hupdates : KeepsStatus updates) (hread : allowed (.send .getConversation))
    (hupdate : ∀ accepts change token,
      (∀ conversation, (change conversation).status = (conversation : ConversationDocument).status ∨
        (change conversation).status = target) →
      allowed (.send (.updateConversation accepts change token))) :
    (safeTransition holding target updates now).run.Issues allowed := by
  refine Issues.raising_bind (Issues.send hread) fun current => ?_
  rcases current with _ | current
  · trivial
  · dsimp only
    split
    · trivial
    · split
      · exact Issues.raising_bind (Issues.send (hupdate _ _ _ fun _ => .inl (hupdates _)))
          fun _ => trivial
      · apply Issues.attempt_bind (transition_issues holding updates now hread hupdate)
        rintro (error | saved)
        · cases error <;> trivial
        · trivial

theorem issues_safeTransition (holding : Holding) {target : ConversationStatus}
    {updates : ConversationDocument → ConversationDocument} (now : Int)
    (hupdates : KeepsStatus updates) (h : target = .readyForProcessing → ready) :
    (safeTransition holding target updates now).run.Issues (FinalizeCommand ready) := by
  refine safeTransition_issues holding now hupdates ⟨trivial, fun _ => trivial⟩ ?_
  intro accepts change token hchange
  refine ⟨fun conversation hstatus => ?_, fun _ => trivial⟩
  rcases hchange conversation with hsame | htarget
  · exact .inl (hsame.symm.trans hstatus)
  · exact .inr (h (htarget.symm.trans hstatus))

theorem issues_persistAccounting (now : Int) :
    (persistAccounting now).run.Issues (FinalizeCommand ready) :=
  Issues.raising_bind (Issues.send ⟨fun _ hstatus => .inl hstatus, fun _ => trivial⟩) fun _ =>
    trivial

theorem issues_queue : (markWindowQueued windowId now).run.Issues (FinalizeCommand ready) :=
  Issues.raising_bind (Issues.send ⟨trivial, fun _ => trivial⟩) fun _ => trivial

theorem issues_fail {error : String} :
    (failWindow windowId error now).run.Issues (FinalizeCommand ready) :=
  Issues.raising_bind (Issues.send ⟨trivial, fun _ => trivial⟩) fun _ => trivial

theorem issues_reclaimWindows (staleBefore now : Int) (windowIds : List Nat) :
    (reclaimWindows staleBefore now windowIds).run.Issues (FinalizeCommand ready) := by
  induction windowIds with
  | nil => trivial
  | cons windowId rest ih =>
    exact Issues.raising_bind (Issues.send ⟨trivial, fun _ => trivial⟩) fun _ => ih

theorem issues_publishWindows (now : Int) (windows : List Window) :
    (publishWindows now windows).run.Issues (FinalizeCommand ready) := by
  induction windows with
  | nil => trivial
  | cons window rest ih =>
    apply Issues.raising_bind issues_queue
    exact fun _ => Issues.raising_bind (Issues.send ⟨trivial, fun _ => silent_window⟩) fun _ => ih

theorem issues_recoverWindows (now : Int) (windows : List Window) :
    (recoverWindows now windows).run.Issues (FinalizeCommand ready) := by
  induction windows with
  | nil => trivial
  | cons window rest ih =>
    apply Issues.raising_bind issues_fail
    intro _
    apply Issues.raising_bind issues_queue
    exact fun _ => Issues.raising_bind (Issues.send ⟨trivial, fun _ => silent_window⟩) fun _ => ih

theorem issues_waitForTranscripts {settings : Settings} {request : FinalizeCall}
    {conversation : ConversationDocument} {chunks : List Chunk} {accounting : Accounting} :
    (waitForTranscripts settings request conversation chunks accounting).run.Issues
      (FinalizeCommand ready) := by
  apply Issues.raising_bind
  · apply Issues.raising_bind issues_reclaimStt
    intro reclaimed
    apply Issues.raising_bind (issues_emitEach (by decide))
    exact fun _ => trivial
  · intro _
    split
    · apply Issues.raising_bind (issues_safeTransition _ _ (keepsStatus_setMissing _) nofun)
      exact fun _ => trivial
    · trivial

theorem issues_drain (settings : Settings) (request : FinalizeCall) :
    (drain settings request).run.Issues (FinalizeCommand False) := by
  refine Issues.raising_bind (Issues.send ⟨trivial, fun _ => trivial⟩) fun found => ?_
  rcases found with _ | conversation
  · trivial
  · dsimp only
    split
    · trivial
    · split
      · trivial
      · refine Issues.raising_bind (Issues.send ⟨trivial, fun _ => trivial⟩) fun chunks => ?_
        refine Issues.raising_bind (Issues.send ⟨trivial, fun _ => trivial⟩) fun _ => ?_
        apply Issues.raising_bind (issues_persistAccounting _)
        intro _
        split
        · apply Issues.raising_bind issues_waitForTranscripts
          exact fun _ => trivial
        · split
          · apply Issues.raising_bind issues_close
            exact fun _ => trivial
          · trivial

theorem issues_publishReady (request : FinalizeCall) (accounting : Accounting) (hready : ready) :
    (publishReady request accounting).run.Issues (FinalizeCommand ready) := by
  unfold publishReady
  split
  · apply Issues.raising_bind (issues_safeTransition _ _ keepsStatus_id nofun)
    exact fun _ => trivial
  · refine Issues.raising_bind (Issues.send ⟨trivial, fun hnot => absurd hready hnot⟩) fun _ => ?_
    apply Issues.raising_bind (issues_safeTransition _ _ (keepsStatus_setMissing _) fun _ => hready)
    intro transitioned
    split
    · exact Issues.send ⟨trivial, fun hnot => absurd hready hnot⟩
    · trivial

theorem issues_settleListed {settings : Settings} {request : FinalizeCall} {drained : Drained}
    {unwindowed : Nat} {windows : List Window} :
    (settleListed settings request drained unwindowed windows).run.Issues
      (FinalizeCommand (unwindowed = 0 ∧ windows.filter Window.incomplete = [] ∧
        windows.filter Window.persistenceGap = [])) := by
  apply Issues.raising_bind (issues_publishWindows _ _)
  intro _
  refine Issues.raising_bind (Issues.send ⟨trivial, fun _ => trivial⟩) fun chunks => ?_
  apply Issues.raising_bind (issues_persistAccounting _)
  intro _
  split
  · split
    · apply Issues.raising_bind (issues_safeTransition _ _ (keepsStatus_setMissing _) nofun)
      exact fun _ => trivial
    · trivial
  · next hdrained =>
    split
    · apply Issues.raising_bind (issues_recoverWindows _ _)
      intro _
      apply Issues.raising_bind (issues_safeTransition _ _ keepsStatus_id nofun)
      exact fun _ => trivial
    · next hgaps =>
      obtain ⟨hnone, hincomplete⟩ := not_or.mp hdrained
      exact issues_publishReady _ _
        ⟨Nat.le_zero.mp (Nat.not_lt.mp hnone), not_not.mp hincomplete, not_not.mp hgaps⟩

theorem issues_settleWindows {settings : Settings} {request : FinalizeCall} {drained : Drained}
    {unwindowed : Nat} :
    (settleWindows settings request drained unwindowed).run.Issues
      (FinalizeCommand (unwindowed = 0)) := by
  refine Issues.raising_bind (Issues.send ⟨trivial, fun _ => trivial⟩) fun _ => ?_
  apply Issues.raising_bind
  · exact Issues.raising_bind (Issues.send ⟨trivial, fun _ => trivial⟩) fun _ =>
      issues_reclaimWindows _ _ _
  · intro _
    refine Issues.raising_bind (Issues.send ⟨trivial, fun _ => trivial⟩) fun windows => ?_
    refine issues_settleListed.mono fun command hcommand => ⟨hcommand.1.mono (fun _ _ _ => id) ?_,
      fun hnot => hcommand.2 fun hready => hnot hready.1⟩
    exact fun change hchange conversation hstatus =>
      (hchange conversation hstatus).imp_right fun hready => hready.1

end Issued

theorem settled_of_pending (h : chunk.sttStatus = .pending) : chunk.settled = true := by
  have haccounted : chunk.accounted = true := accounted_of_open (by rw [h]; nofun)
  rw [Chunk.settled, haccounted, Bool.or_true]

theorem FinalizeChunk.accounted (h : FinalizeChunk sequence accepts change) (chunk : Chunk) :
    (change chunk).accounted = true := by
  rcases h with hclose | hreclaim
  · exact hclose.accounted nofun chunk
  · exact hreclaim.accounted nofun chunk

theorem Move.ready {chunks : Nat → (Chunk → Bool) → (Chunk → Chunk) → Prop}
    {allowed : ∀ {α : Type}, Command α → State → Prop} {ready : Prop} {s' : State}
    (h : Move chunks (FinalizeConversation ready) allowed s s')
    (hstatus : s'.status? = some .readyForProcessing) :
    s.status? = some .readyForProcessing ∨ ready := by
  cases h with
  | nothing => exact .inl hstatus
  | chunk => exact .inl hstatus
  | inserted _ hnew =>
    rw [State.insertChunk, dif_neg hnew] at hstatus
    exact .inl hstatus
  | conversation hchange hconversation =>
    rcases hchange _ (Option.some.inj hstatus) with hbefore | hready
    · rw [State.status?, hconversation, Option.map_some, hbefore]
      exact .inl rfl
    · exact .inr hready
  | windows _ hconversation =>
    rw [State.status?, hconversation] at hstatus
    exact .inl hstatus

variable {j : SessionJournal} {β : Type}

section Runs

variable {settings : Settings} {request : FinalizeCall} {start : State}
  {pool₀ pool₁ pool₂ pool₃ pool₄ : Pool SessionCommands Unit SessionJournal} {drained : Drained}
  {prog prog' rest : Program (Remote Mongo.Error Command) (Except StatusError Unit)}

def Settled (j : SessionJournal) : Prop := ∀ chunk ∈ j.state.chunks, chunk.settled = true

def AccountedThrough (last : Int) (j : SessionJournal) : Prop :=
  ∀ chunk ∈ j.state.chunks, chunk.accountedThrough last

theorem Settled.entered {j' : SessionJournal} (hj : Settled j)
    (h : Entered (fun label command s => sparesProcessed label command s = true) label j j') :
    Settled j' := by
  refine h.1.chunks_keep (fun chunk => settled_of_pending) ?_ hj
  intro sequence accepts change token found hupdate hfound hspares _
  exact hupdate.settled hfound hspares

theorem AccountedThrough.entered {j' : SessionJournal} (hj : AccountedThrough last j)
    (h : Entered (fun label command s => sparesUnwindowed last label command s = true) label j j') :
    AccountedThrough last j' := by
  refine h.1.chunks_keep (fun chunk hpending _ => ?_) ?_ hj
  · exact accounted_of_open (by rw [hpending]; nofun)
  · intro sequence accepts change token found hupdate hfound hspares _
    exact hupdate.accountedThrough hfound hspares

theorem finalizeMove {ready : Prop} {command : Remote Mongo.Error Command β} {reply : β}
    (hcommand : FinalizeCommand ready command) (h : finalizeSemantics command pool₀ reply pool₁) :
    Move FinalizeChunk (FinalizeConversation ready) (fun _ _ => True) pool₀.shared.state
      pool₁.shared.state := by
  rcases command with ⟨command⟩
  exact move_of_performed hcommand.1 trivial h.1

theorem finalize_threads {command : Remote Mongo.Error Command β} {reply : β}
    (h : finalizeSemantics command pool₀ reply pool₁) (hthreads : SessionThreads pool₀) :
    SessionThreads pool₁ := by
  intro thread hmem
  exact hthreads thread (h.2.1 ▸ hmem)

theorem accountedThrough_of_count (h : Settled j)
    (hcount : j.state.chunks.countP (Chunk.counts (some last)) = 0) : AccountedThrough last j := by
  intro chunk hmem hlast
  have hsettled := h chunk hmem
  rw [Chunk.settled, Bool.or_eq_true] at hsettled
  rcases hsettled with hunprocessed | haccounted
  · have hnot := List.countP_eq_zero.mp hcount chunk hmem
    have hunprocessed : chunk.processingStatus = .unprocessed := of_decide_eq_true hunprocessed
    simp only [Chunk.counts, Chunk.unwindowed, Chunk.within, hunprocessed, Option.all_some,
      decide_eq_true hlast, decide_true, Bool.and_true, Bool.and_eq_true, decide_eq_true_eq,
      Bool.not_eq_true', not_and, Bool.not_eq_false] at hnot
    by_cases htext : chunk.sttStatus = .completed ∧ chunk.useful = true
    · simp [Chunk.accounted, hnot htext]
    · simp only [Chunk.accounted, Bool.or_eq_true, Bool.not_eq_true', Bool.and_eq_false_iff,
        decide_eq_false_iff_not]
      rw [not_and_or, Bool.not_eq_true] at htext
      exact .inl (.inl htext)
  · exact haccounted

/-- Where `finalize` may set READY_FOR_PROCESSING, every chunk through the last is accounted for. -/
def Ready (ready : Prop) (last : Int) (pool : Pool SessionCommands Unit SessionJournal) : Prop :=
  SessionThreads pool ∧ (ready → AccountedThrough last pool.shared)

theorem Ready.moves {ready : Prop} (h : Ready ready last pool₀)
    (moves : SessionMoves settings
      (fun label command s => sparesUnwindowed last label command s = true) pool₀ pool₁) :
    Ready ready last pool₁ :=
  sessionMoves_invariant (fun j => ready → AccountedThrough last j)
    (fun _ _ _ hj hentered hready => (hj hready).entered hentered) h.1 h.2 moves

theorem Ready.finalize {ready ready' : Prop} {command : Remote Mongo.Error Command β} {reply : β}
    (h : Ready ready last pool₀) (hcommand : FinalizeCommand ready' command)
    (hstep : finalizeSemantics command pool₀ reply pool₁) : Ready ready last pool₁ := by
  refine ⟨finalize_threads hstep h.1, fun hready => ?_⟩
  refine (finalizeMove hcommand hstep).chunks_keep (fun chunk hpending _ => ?_) ?_ (h.2 hready)
  · exact accounted_of_open (by rw [hpending]; nofun)
  · exact fun sequence accepts change token found hchunk _ _ _ _ => hchunk.accounted found

theorem settle_count (henabled : settings.enableIncrementalMeetingProcessing = true)
    {request : FinalizeCall} {drained : Drained} :
    ∃ next, (settle settings request drained).run = .call (.send .listChunks) next ∧
      (∀ chunks, next (.ok chunks) = (settleWindows settings request drained
        (chunks.countP (Chunk.counts (some drained.expectedLast)))).run) ∧
      ∀ error, next (.error error) = .ret (.error (.write (.mongo error))) := by
  rw [settle, if_pos henabled]
  exact ⟨_, rfl, fun _ => rfl, fun _ => rfl⟩

/-- In a run in which no completion with a text comes upon a chunk that is processed but belongs to
no window and, between the count and the change of the status, upon none through the last that
belongs to no window: when `finalize` sets READY_FOR_PROCESSING, every completed chunk through the
last that has a text belongs to a window or is excluded. -/
theorem nothing_lost (henabled : settings.enableIncrementalMeetingProcessing = true)
    (hfresh : Fresh start)
    (before : SessionRun settings (fun label command s => sparesProcessed label command s = true)
      start pool₀)
    (head : Reach finalizeSemantics
      (SessionMoves settings fun label command s => sparesProcessed label command s = true)
      (drain settings request).run pool₀ (.ret (.ok (some drained))) pool₁)
    (count : Turn finalizeSemantics (settle settings request drained).run pool₁ rest pool₂)
    (tail : Reach finalizeSemantics
      (SessionMoves settings fun label command s =>
        sparesUnwindowed drained.expectedLast label command s = true) rest pool₂ prog pool₃)
    (turn : Turn finalizeSemantics prog pool₃ prog' pool₄)
    (hbefore : pool₃.shared.state.status? ≠ some .readyForProcessing)
    (hready : pool₄.shared.state.status? = some .readyForProcessing) :
    ∀ chunk ∈ pool₄.shared.state.chunks, chunk.sttStatus = .completed → chunk.useful = true →
      (chunk.sequenceNumber : Int) ≤ drained.expectedLast →
      chunk.processingWindowId.isSome = true ∨ chunk.excluded = true := by
  have hstarted : SessionThreads pool₀ ∧ Settled pool₀.shared := by
    refine sessionRun_invariant Settled (fun _ _ _ hj h => hj.entered h) ?_ before
    exact fun chunk hmem => settled_of_pending (hfresh.pending chunk hmem)
  -- through the drain
  have hdrained : SessionThreads pool₁ ∧ Settled pool₁.shared := by
    refine ((issues_drain settings request).reach
      (fun pool : Pool SessionCommands Unit SessionJournal =>
        SessionThreads pool ∧ Settled pool.shared) ?_ ?_ hstarted head).1
    · rintro pool pool' ⟨hthreads, hsettled⟩ moves
      exact sessionMoves_invariant Settled (fun _ _ _ hj h => hj.entered h) hthreads hsettled moves
    · rintro β command pool reply pool' hcommand ⟨hthreads, hsettled⟩ hstep
      refine ⟨finalize_threads hstep hthreads, ?_⟩
      refine (finalizeMove hcommand hstep).chunks_keep (fun chunk => settled_of_pending) ?_ hsettled
      intro sequence accepts change token found hchunk _ _ _
      have haccounted := hchunk.accounted found
      show (change found).settled = true
      rw [Chunk.settled, haccounted, Bool.or_true]
  -- the count
  obtain ⟨next, hsettle, hnext, hlost⟩ := settle_count henabled
  rw [hsettle] at count
  cases count with
  | @call _ _ _ reply _ _ hcount =>
    cases reply with
    | error error =>
      rw [hlost] at tail
      obtain rfl := tail.eq_ret
      cases turn
    | ok chunks =>
      obtain ⟨hperformed, hsame, -⟩ := hcount
      obtain ⟨choice, hanswers⟩ : Performed .listChunks pool₁.shared.state (.ok chunks)
        pool₂.shared.state := hperformed
      have hrun := hanswers.of_ok
      simp only [State.run, Prod.mk.injEq, Except.ok.injEq] at hrun
      obtain ⟨rfl, hstate⟩ := hrun
      rw [hnext] at tail
      have hcounted : Ready (List.countP (Chunk.counts (some drained.expectedLast))
          pool₁.shared.state.chunks = 0) drained.expectedLast pool₂ := by
        refine ⟨fun thread hmem => hdrained.1 thread (hsame ▸ hmem), fun hnone => ?_⟩
        have haccounted := accountedThrough_of_count hdrained.2 hnone
        exact fun chunk hmem => haccounted chunk (by rw [hstate]; exact hmem)
      obtain ⟨hinv, hissues⟩ := (issues_settleWindows).reach _
        (fun _ _ h moves => h.moves moves)
          (fun _ _ _ _ hcommand h hstep => h.finalize hcommand hstep)
        hcounted tail
      -- the change of the status
      cases turn with
      | call hstep =>
        rcases (finalizeMove hissues.1 hstep).ready hready with hsame | hnone
        · exact absurd hsame hbefore
        · have haccounted := (hinv.finalize hissues.1 hstep).2 hnone
          intro chunk hmem hcompleted huseful hlast
          have hchunk := haccounted chunk hmem hlast
          simpa [Chunk.accounted, hcompleted, huseful] using hchunk

end Runs

/-! A conversation with one chunk, which is completed before `finalize` runs. -/

def sampleStopped : State where
  conversation := some { status := .waitingForTranscripts, expectedLastSequence := some 0 }
  chunks := [{ chunkId := "c", sequenceNumber := 0, updatedAt := 0 }]
  windows := []
  ordered := sampleSession.ordered

theorem sampleStopped_fresh : Fresh sampleStopped := ⟨by decide, by simp [sampleStopped]⟩

def sampleComplete : SessionTask := .complete { sequence := 0, rawText := "hello", now := 1 }

/-- A command of `finalize`, answered. -/
def finalizeAnswer {β : Type} (command : Remote Mongo.Error Command β)
    (pool : Pool SessionCommands Unit SessionJournal) :
    β × Pool SessionCommands Unit SessionJournal :=
  let (reply, state) := answer command pool.shared.state
  (reply, { pool with shared := { pool.shared with state } })

theorem finalizeAnswer_sem (command : Remote Mongo.Error Command β)
    (pool : Pool SessionCommands Unit SessionJournal) :
    finalizeSemantics command pool (finalizeAnswer command pool).1
      (finalizeAnswer command pool).2 := by
  rcases command with ⟨command⟩
  exact ⟨⟨0, .answered⟩, rfl, rfl⟩

def sampleFinalize : FinalizeCall := { now := 2 }

def sampleDrain := (drain { } sampleFinalize).run.eval finalizeAnswer
  (sessionAfter { } sampleStopped [sampleComplete] [0, 0])

def resultOf {α : Type} (default : α) (outcome : Except StatusError (Option α)) : α :=
  match outcome with
  | .ok (some result) => result
  | _ => default

theorem eq_resultOf {α : Type} {default : α} {outcome : Except StatusError (Option α)}
    (h : (outcome matches .ok (some _)) = true) : outcome =
      .ok (some (resultOf default outcome)) := by
  rcases outcome with error | (_ | result)
  · cases h
  · cases h
  · rfl

def sampleDrained : Drained :=
  resultOf
    { conversation := { }
      expectedLast := 0
      accounting := { missingSequences := [], permanentFailures := 0, validUnwindowed := 0 } }
    sampleDrain.1

def sampleCount := advance finalizeAnswer 1 (settle { } sampleFinalize sampleDrained).run
    sampleDrain.2

def sampleTail := advance finalizeAnswer 8 sampleCount.1 sampleCount.2

def sampleReady := advance finalizeAnswer 1 sampleTail.1 sampleTail.2

theorem nothing_lost_sample :
    sampleReady.2.shared.state.status? = some .readyForProcessing ∧
      sampleReady.2.shared.state.completedSequences = [0] ∧
      ∀ chunk ∈ sampleReady.2.shared.state.chunks, chunk.sttStatus = .completed →
        chunk.useful = true → (chunk.sequenceNumber : Int) ≤ sampleDrained.expectedLast →
        chunk.processingWindowId.isSome = true ∨ chunk.excluded = true := by
  have hrun : SessionRun { } (fun label command s => sparesProcessed label command s = true)
      sampleStopped (sessionAfter { } sampleStopped [sampleComplete] [0, 0]) :=
    sessionRun_turns _ _ _ _ sparesProcessed (fun _ _ _ h => h) (by decide +kernel)
  have hdrain : sampleDrain.1 = .ok (some sampleDrained) := eq_resultOf (by decide +kernel)
  have hhead : Reach finalizeSemantics
      (SessionMoves { } fun label command s => sparesProcessed label command s = true)
      (drain { } sampleFinalize).run (sessionAfter { } sampleStopped [sampleComplete] [0, 0])
      (.ret sampleDrain.1) sampleDrain.2 := reach_eval finalizeAnswer_sem _ _
  rw [hdrain] at hhead
  refine ⟨by decide +kernel, by decide +kernel, ?_⟩
  refine nothing_lost rfl sampleStopped_fresh hrun hhead
    (turn_advance finalizeAnswer_sem rfl _)
    (reach_advance (fun _ _ => true) (fun command pool _ => finalizeAnswer_sem command pool) 8 _ _
      ?_)
    (turn_advance finalizeAnswer_sem ?_ _) ?_ ?_
  · decide +kernel
  · decide +kernel
  · decide +kernel
  · decide +kernel

def sampleLate : Pool SessionCommands Unit SessionJournal :=
  sessionAfter { } sampleStopped
    [.fail { sequence := 0, error := "corrupt", terminal := true, now := 1 },
      .close { now := 1 }, sampleComplete]
    [0, 0, 0, 1, 1, 1, 1, 2, 2]

def sampleLateFinalize := (finalize { } sampleFinalize).run.eval finalizeAnswer sampleLate

/-- `complete_transcript_chunk` clears the reason of the exclusion, but the chunk stays PROCESSED:
no window takes it, and the count that `finalize` makes does not see it. -/
theorem completed_chunk_lost :
    SessionRun { } (fun _ _ _ => True) sampleStopped sampleLate ∧
      sampleLate.shared.state.status? = some .waitingForTranscripts ∧
      Reach finalizeSemantics (SessionMoves { } fun _ _ _ => True) (finalize { } sampleFinalize).run
        sampleLate (.ret sampleLateFinalize.1) sampleLateFinalize.2 ∧
      sampleLateFinalize.2.shared.state.status? = some .readyForProcessing ∧
      ¬ ∀ chunk ∈ sampleLateFinalize.2.shared.state.chunks, chunk.sttStatus = .completed →
        chunk.useful = true → (chunk.sequenceNumber : Int) ≤ 0 →
        chunk.processingWindowId.isSome = true ∨ chunk.excluded = true :=
  ⟨sessionRun_turns _ _ _ _ (fun _ _ _ => true) (fun _ _ _ _ => trivial) (by decide +kernel),
    by decide +kernel, reach_eval finalizeAnswer_sem _ _, by decide +kernel, by decide +kernel⟩

end AiBuddy.Conversation.Session
