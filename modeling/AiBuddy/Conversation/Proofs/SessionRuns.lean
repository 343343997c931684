import Mathlib.Logic.Basic
import AiBuddy.Conversation.SessionRuns

/-!
# What a command of an operation does

Every update of a chunk or of the counters that the operations issue is one of a few. From them
comes what one move of a run does to the chunks and the conversation.
-/

namespace AiBuddy.Conversation.Session

open Program Queue.MongoFence

inductive ChunkUpdate : SessionLabel → Nat → (Chunk → Bool) → (Chunk → Chunk) → Prop where
  | mark (sequence : Nat) (now : Int) :
      ChunkUpdate (.mark sequence) sequence Chunk.retryable
        fun chunk => { chunk with sttStatus := .processing, updatedAt := now }
  | complete (request : Completion) :
      ChunkUpdate (.complete request.sequence) request.sequence Chunk.open? request.change
  | fail (request : Failure) (counting : Bool) :
      ChunkUpdate (.fail request.sequence counting) request.sequence Chunk.retryable request.change
  | reclaim (sequence : Nat) (staleBefore now : Int) :
      ChunkUpdate .reclaim sequence (Chunk.stale staleBefore) fun chunk =>
        { chunk with
          sttStatus := .pending
          lastError := some "stale STT processing reclaimed"
          updatedAt := now }
  | exclude (sequence : Nat) (reason : TranscriptExclusionReason) (now : Int) :
      ChunkUpdate .close sequence Chunk.unprocessed (Chunk.exclude reason now)
  | assign (sequence windowId : Nat) (now : Int) :
      ChunkUpdate .close sequence Chunk.unprocessed (Chunk.assign windowId now)

inductive ConversationUpdate :
    SessionLabel → (ConversationDocument → ConversationDocument) → Prop where
  | record (metadata : AudioChunk) :
      ConversationUpdate .record fun conversation =>
        { conversation with
          receivedAudioChunkCount :=
            conversation.receivedAudioChunkCount + if metadata.inserted then 1 else 0
          updatedAt := metadata.now }
  | complete (request : Completion) : ConversationUpdate (.complete request.sequence) request.count
  | fail (request : Failure) : ConversationUpdate (.fail request.sequence true) request.count

def Permits (chunks : Nat → (Chunk → Bool) → (Chunk → Chunk) → Prop)
    (conversations : (ConversationDocument → ConversationDocument) → Prop) {β : Type}
    (command : Remote Mongo.Error Command β) : Prop :=
  match command with
  | .send (.updateChunk sequence accepts change _) => chunks sequence accepts change
  | .send (.insertChunk chunk) => chunk.sttStatus = .pending
  | .send (.updateConversation _ change _) => conversations change
  | .send _ => True

variable {β : Type}

theorem Permits.mono {chunks chunks' : Nat → (Chunk → Bool) → (Chunk → Chunk) → Prop}
    {conversations conversations' : (ConversationDocument → ConversationDocument) → Prop}
    {command : Remote Mongo.Error Command β} (h : Permits chunks conversations command)
    (hchunks : ∀ sequence accepts change, chunks sequence accepts change →
      chunks' sequence accepts change)
    (hconversations : ∀ change, conversations change → conversations' change) :
    Permits chunks' conversations' command := by
  rcases command with ⟨command⟩
  cases command with
  | updateChunk => exact hchunks _ _ _ h
  | updateConversation => exact hconversations _ h
  | insertChunk => exact h
  | _ => trivial

abbrev SessionCommand (label : SessionLabel) {β : Type}
    (command : Remote Mongo.Error Command β) : Prop :=
  Permits (ChunkUpdate label) (ConversationUpdate label) command

def Silent {β : Type} (command : Remote Mongo.Error Command β) : Prop :=
  match command with
  | .send (.emit name) => name ≠ processingRequested
  | .send _ => True

abbrev SilentCommand (label : SessionLabel) {β : Type}
    (command : Remote Mongo.Error Command β) : Prop :=
  SessionCommand label command ∧ Silent command

variable {now : Int} {sequences : List Nat} {settings : Settings}

section Issued

variable {label : SessionLabel}

theorem issues_sent {α : Type} {command : Command α}
    (h : SessionCommand label (.send command)) : (sent command).run.Issues (SessionCommand label) :=
  Issues.send h

theorem issues_ended {α : Type} {prog : Operating α}
    (h : prog.run.Issues (SessionCommand label)) : (ended prog).Issues (SessionCommand label) :=
  Issues.bind h fun _ => trivial

theorem issues_guardLease {holding : Holding} :
    holding.guardLease.run.Issues (SessionCommand label) := trivial

theorem issues_fenced {allowed : ∀ {β : Type}, Remote Mongo.Error Command β → Prop} {γ : Type}
    {holding : Holding} {command : Option Int → Command (Option β)} {probe : Command (Option γ)}
    {fence : γ → Option Int} (hcommand : ∀ token, allowed (.send (command token)))
    (hprobe : allowed (.send probe)) :
    (holding.fenced command probe fence).run.Issues allowed := by
  unfold Holding.fenced
  split
  · trivial
  · exact Issues.send (hcommand none)
  · next token _ =>
    refine Issues.raising_bind (Issues.send (hcommand (some token))) fun result => ?_
    rcases result with _ | document
    · refine Issues.raising_bind (Issues.send hprobe) fun existing => ?_
      split <;> trivial
    · trivial

theorem issues_record {metadata : AudioChunk} :
    (recordAudioChunk metadata).run.Issues (SessionCommand .record) := by
  refine Issues.raising_bind (issues_sent (ConversationUpdate.record metadata)) fun _ => ?_
  exact Issues.raising_bind (issues_sent rfl) fun _ => trivial

theorem issues_mark (sequence : Nat) (now : Int) :
    (markTranscriptChunkProcessing sequence now).run.Issues (SessionCommand (.mark sequence)) := by
  exact Issues.raising_bind (issues_sent (ChunkUpdate.mark sequence now)) fun _ => trivial

theorem issues_complete (request : Completion) :
    (completeTranscriptChunk request).run.Issues (SessionCommand (.complete request.sequence)) := by
  apply Issues.raising_bind issues_guardLease
  intro _
  refine Issues.raising_bind (issues_fenced (fun _ => ChunkUpdate.complete request) trivial)
    fun result => ?_
  split
  · exact Issues.raising_bind
      (issues_fenced (fun _ => ConversationUpdate.complete request) trivial) fun _ => trivial
  · trivial

theorem issues_failExisting (request : Failure) (existing : Chunk) :
    (failExisting request existing).run.Issues
      (SessionCommand (.fail request.sequence (existing.sttStatus ≠ .failed))) := by
  unfold failExisting
  split
  · trivial
  · refine Issues.raising_bind (issues_sent (ChunkUpdate.fail request _)) fun result => ?_
    rcases result with _ | updated
    · trivial
    · dsimp only
      split
      · next hstatus =>
        rw [decide_eq_true hstatus]
        exact Issues.raising_bind (issues_sent (ConversationUpdate.fail request)) fun _ => trivial
      · trivial

theorem issues_reclaimEach {staleBefore : Int} :
    (reclaimEach staleBefore now sequences).run.Issues (SilentCommand .reclaim) := by
  induction sequences with
  | nil => trivial
  | cons sequence rest ih =>
    refine Issues.raising_bind (Issues.send ⟨.reclaim sequence staleBefore now, trivial⟩) ?_
    intro result
    apply Issues.raising_bind ih
    exact fun _ => trivial

theorem issues_reclaim (staleBefore now : Int) :
    (reclaimStaleSttChunks staleBefore now).run.Issues (SilentCommand .reclaim) := by
  exact Issues.raising_bind (Issues.send ⟨trivial, trivial⟩) fun chunks =>
    issues_reclaimEach

/-! Closing windows issues no other updates than exclusions and assignments. -/

theorem issues_updateEach {change : Chunk → Chunk}
    (h : ∀ sequence, ChunkUpdate label sequence Chunk.unprocessed change) :
    (updateEach change sequences).run.Issues (SilentCommand label) := by
  induction sequences with
  | nil => trivial
  | cons sequence rest ih =>
    exact Issues.raising_bind (Issues.send ⟨h sequence, trivial⟩) fun _ => ih

theorem issues_excluded {reason : TranscriptExclusionReason} :
    (markTranscriptsExcluded sequences reason now).run.Issues (SilentCommand .close) :=
  issues_updateEach (fun sequence => .exclude sequence reason now)

theorem issues_createWindow (window : Window) (owned skipped : List Nat) (now : Int) :
    (createConversationWindow window owned skipped now).run.Issues (SilentCommand .close) := by
  refine Issues.raising_bind (Issues.send ⟨trivial, trivial⟩) fun saved => ?_
  apply Issues.raising_bind (issues_updateEach (fun sequence => .assign sequence saved.id now))
  intro _
  apply Issues.raising_bind issues_excluded
  exact fun _ => trivial

theorem issues_completeWindow (holding : Holding) (windowId : Nat) (persisted : Bool) (now : Int) :
    (completeWindow holding windowId persisted now).run.Issues (SilentCommand label) := by
  refine Issues.raising_bind trivial fun _ => ?_
  exact Issues.raising_bind (issues_fenced (fun _ => ⟨trivial, trivial⟩) ⟨trivial, trivial⟩)
    fun _ => trivial

theorem issues_markWindowQueued {windowId : Nat} :
    (markWindowQueued windowId now).run.Issues (SilentCommand label) := by
  exact Issues.raising_bind (Issues.send ⟨trivial, trivial⟩) fun _ => trivial

theorem silent_window : Silent (.send (.emit "conversation.window.extraction.requested")) := by
  change "conversation.window.extraction.requested" ≠ processingRequested
  decide

theorem issues_routeWindow (settings : Settings) (request : CloseCall)
    (conversation : ConversationDocument) (position : Nat) (closeReason : CloseReason)
    (saved : Window) :
    (routeWindow settings request conversation position closeReason saved).run.Issues
      (SilentCommand label) := by
  unfold routeWindow
  dsimp only
  split
  · exact issues_completeWindow _ _ _ _
  · split
    · apply Issues.raising_bind issues_markWindowQueued
      exact fun _ => Issues.send ⟨trivial, silent_window⟩
    · trivial

theorem issues_storeWindows (settings : Settings) (request : CloseCall)
    (conversation : ConversationDocument) (position : Nat) (built : List BuiltWindow) :
    (storeWindows settings request conversation position built).run.Issues
      (SilentCommand .close) := by
  have hclosed : Silent (.send (.emit "window_closed")) := by
    change "window_closed" ≠ processingRequested
    decide
  induction built generalizing position with
  | nil => trivial
  | cons first rest ih =>
    apply Issues.raising_bind
    · apply Issues.raising_bind (issues_createWindow _ _ _ _)
      intro saved
      apply Issues.raising_bind (issues_routeWindow _ _ _ _ _ _)
      intro _
      exact Issues.raising_bind (Issues.send ⟨trivial, hclosed⟩) fun _ => trivial
    · intro windowId
      apply Issues.raising_bind (ih (position + 1))
      exact fun _ => trivial

theorem issues_readOverlap {windows : List Window} :
    (readOverlap windows).run.Issues (SilentCommand label) := by
  unfold readOverlap
  split
  · trivial
  · split
    · trivial
    · exact Issues.raising_bind (Issues.send ⟨trivial, trivial⟩) fun _ => trivial

theorem issues_closeOver {request : CloseCall} {conversation : ConversationDocument}
    {windows : List Window} {unwindowed : List Chunk} {skippable : List Nat} :
    (closeOver settings request conversation windows unwindowed skippable).run.Issues
      (SilentCommand .close) := by
  apply Issues.raising_bind issues_readOverlap
  intro overlapPrefix
  apply Issues.raising_bind (issues_storeWindows _ _ _ _ _)
  intro windowIds
  split
  · apply Issues.raising_bind issues_excluded
    exact fun _ => trivial
  · trivial

theorem issues_closeReadyWindows (settings : Settings) (request : CloseCall) :
    (closeReadyWindows settings request).run.Issues (SilentCommand .close) := by
  unfold closeReadyWindows
  split
  · refine Issues.raising_bind (Issues.send ⟨trivial, trivial⟩) fun found => ?_
    rcases found with _ | conversation
    · trivial
    · refine Issues.raising_bind (Issues.send ⟨trivial, trivial⟩) fun allChunks => ?_
      refine Issues.raising_bind (Issues.send ⟨trivial, trivial⟩) fun windows => ?_
      dsimp only
      split
      · trivial
      · split
        · trivial
        · apply Issues.raising_bind issues_excluded
          intro _
          apply Issues.raising_bind issues_excluded
          intro _
          dsimp only
          split
          · trivial
          · apply Issues.raising_bind issues_excluded
            intro _
            apply Issues.raising_bind issues_excluded
            exact fun _ => issues_closeOver
  · trivial

end Issued

theorem issues_task (settings : Settings) (task : SessionTask) :
    (task.program settings).Issues fun command => SessionCommand command.label command.command := by
  have labelled_issues : ∀ {α : Type} {label : SessionLabel}
      {prog : Program (Remote Mongo.Error Command) α},
      prog.Issues (SessionCommand label) →
      (prog.labelled label).Issues fun command =>
        SessionCommand command.label command.command := by
    intro α label prog h
    exact h.labelled.mono fun command hcommand => hcommand.1 ▸ hcommand.2
  cases task with
  | record metadata => exact labelled_issues (issues_ended issues_record)
  | mark sequence now => exact labelled_issues (issues_ended (issues_mark sequence now))
  | complete request => exact labelled_issues (issues_ended (issues_complete request))
  | fail request =>
    apply Issues.bind
    · exact labelled_issues ((Issues.send trivial : Issues
        (SessionCommand (.fail request.sequence false)) (sent (.getChunk request.sequence)).run))
    · rintro (error | (_ | existing))
      · trivial
      · trivial
      · exact labelled_issues (issues_ended (issues_failExisting request existing))
  | reclaim staleBefore now =>
    exact labelled_issues (issues_ended ((issues_reclaim staleBefore now).mono fun _ h => h.1))
  | close request =>
    exact labelled_issues
      (issues_ended ((issues_closeReadyWindows settings request).mono fun _ h => h.1))

variable {found chunk : Chunk}

namespace State

variable {s : State} {sequence : Nat} {accepts : Chunk → Bool} {change : Chunk → Chunk}
  {token : Option Int}

theorem sequences_nodup (s : State) : (s.chunks.map Chunk.sequenceNumber).Nodup :=
  s.increasing.imp Nat.ne_of_lt

theorem findChunk_eq_some (h : s.findChunk sequence accepts token = some found) :
    found ∈ s.chunks ∧ found.sequenceNumber = sequence ∧
      found.writable accepts token = true := by
  refine ⟨List.mem_of_find?_eq_some h, ?_⟩
  simpa using List.find?_some h

theorem accepts_of_findChunk (h : s.findChunk sequence accepts token = some found) :
    accepts found = true :=
  (Bool.and_eq_true_iff.mp (findChunk_eq_some h).2.2).1

theorem updateChunk_of_findChunk (h : s.findChunk sequence accepts token = none) :
    s.updateChunk sequence accepts change token = s := by
  have hchunks : Keyed.modify Chunk.sequenceNumber sequence (Chunk.writable accepts token)
      (Chunk.written change token) s.chunks = s.chunks := by
    apply Keyed.modify_eq_self
    intro chunk hmem hsequence
    have hnone := List.find?_eq_none.mp h chunk hmem
    simpa [hsequence] using hnone
  rcases s with ⟨conversation, chunks, windows, nextWindowId, increasing, ordered⟩
  simp only [updateChunk, mk.injEq, true_and, and_true]
  exact hchunks

theorem mem_updateChunk (hfound : s.findChunk sequence accepts token = some found)
    (h : chunk ∈ (s.updateChunk sequence accepts change token).chunks) :
    (chunk ∈ s.chunks ∧ chunk.sequenceNumber ≠ sequence) ∨ chunk = found.written change token := by
  obtain ⟨hmem, hsequence, hwritable⟩ := findChunk_eq_some hfound
  obtain ⟨before, hbefore, rfl⟩ := List.mem_map.mp h
  by_cases hsame : before.sequenceNumber = sequence
  · obtain rfl := Keyed.eq_of_key s.sequences_nodup hbefore hmem (hsame.trans hsequence.symm)
    rw [if_pos ⟨hsame, hwritable⟩]
    exact .inr rfl
  · rw [if_neg (hsame ·.1)]
    exact .inl ⟨hbefore, hsame⟩

theorem statusAt_updateChunk (hfound : s.findChunk sequence accepts token = some found) (k : Nat) :
    (s.updateChunk sequence accepts change token).statusAt k =
      if k = sequence then some (change found).sttStatus else s.statusAt k := by
  obtain ⟨hmem, hsequence, hwritable⟩ := findChunk_eq_some hfound
  have hfind : Keyed.find? Chunk.sequenceNumber k
    (s.updateChunk sequence accepts change token).chunks =
      (Keyed.find? Chunk.sequenceNumber k s.chunks).map fun chunk =>
        if chunk.sequenceNumber = sequence ∧ chunk.writable accepts token = true then
          chunk.written change token else chunk :=
    Keyed.find?_modify (Chunk.written_sequenceNumber change token) s.chunks
  rw [statusAt, hfind, Option.map_map]
  by_cases hk : k = sequence
  · rw [if_pos hk, (Keyed.find?_eq_some_iff s.sequences_nodup).mpr ⟨hmem, hsequence.trans hk.symm⟩,
      Option.map_some, Function.comp_apply, if_pos ⟨hsequence, hwritable⟩]
    rfl
  · rw [if_neg hk, statusAt]
    cases hchunk : Keyed.find? Chunk.sequenceNumber k s.chunks with
    | none => rfl
    | some chunk =>
      have hne : chunk.sequenceNumber ≠ sequence := by
        rw [(Keyed.find?_eq_some hchunk).2]
        exact hk
      rw [Option.map_some, Option.map_some, Function.comp_apply, if_neg (hne ·.1)]

theorem statusAt_of_findChunk (hfound : s.findChunk sequence accepts token = some found) :
    s.statusAt sequence = some found.sttStatus := by
  obtain ⟨hmem, hsequence, -⟩ := findChunk_eq_some hfound
  rw [statusAt, (Keyed.find?_eq_some_iff s.sequences_nodup).mpr ⟨hmem, hsequence⟩]
  rfl

theorem chunks_insertChunk (hnew : chunk.sequenceNumber ∉ s.chunks.map Chunk.sequenceNumber) :
    (s.insertChunk chunk).chunks = Keyed.insertSorted Chunk.sequenceNumber chunk s.chunks := by
  rw [insertChunk, dif_neg hnew]

theorem insertChunk_of_mem (h : chunk.sequenceNumber ∈ s.chunks.map Chunk.sequenceNumber) :
    s.insertChunk chunk = s :=
  dif_pos h

theorem statusAt_eq_some_iff {k : Nat} {status : STTStatus} :
    s.statusAt k = some status ↔
      ∃ chunk ∈ s.chunks, chunk.sequenceNumber = k ∧ chunk.sttStatus = status := by
  rw [statusAt, Option.map_eq_some_iff]
  constructor
  · rintro ⟨chunk, hfind, rfl⟩
    obtain ⟨hmem, hsequence⟩ := Keyed.find?_eq_some hfind
    exact ⟨chunk, hmem, hsequence, rfl⟩
  · rintro ⟨chunk, hmem, hsequence, rfl⟩
    exact ⟨chunk, (Keyed.find?_eq_some_iff s.sequences_nodup).mpr ⟨hmem, hsequence⟩, rfl⟩

theorem statusAt_insertChunk {k : Nat} {status : STTStatus}
    (hnew : chunk.sequenceNumber ∉ s.chunks.map Chunk.sequenceNumber) :
    (s.insertChunk chunk).statusAt k = some status ↔
      (k = chunk.sequenceNumber ∧ chunk.sttStatus = status) ∨ s.statusAt k = some status := by
  rw [statusAt_eq_some_iff, statusAt_eq_some_iff, chunks_insertChunk hnew]
  simp only [Keyed.mem_insertSorted, or_and_right, exists_or, exists_eq_left]
  exact or_congr (and_congr_left' eq_comm) Iff.rfl

end State

inductive Move (chunks : Nat → (Chunk → Bool) → (Chunk → Chunk) → Prop)
    (conversations : (ConversationDocument → ConversationDocument) → Prop)
    (allowed : ∀ {α : Type}, Command α → State → Prop) (s : State) : State → Prop where
  | nothing : Move chunks conversations allowed s s
  | chunk {sequence : Nat} {accepts : Chunk → Bool} {change : Chunk → Chunk} {token : Option Int}
      {found : Chunk} : chunks sequence accepts change →
      s.findChunk sequence accepts token = some found →
      allowed (.updateChunk sequence accepts change token) s →
      Move chunks conversations allowed s (s.updateChunk sequence accepts change token)
  | inserted {chunk : Chunk} : chunk.sttStatus = .pending →
      chunk.sequenceNumber ∉ s.chunks.map Chunk.sequenceNumber →
      Move chunks conversations allowed s (s.insertChunk chunk)
  | conversation {change : ConversationDocument → ConversationDocument} {token : Option Int}
      {conversation : ConversationDocument} : conversations change →
      s.conversation = some conversation →
      Move chunks conversations allowed s
        { s with
          conversation := some
            { change conversation with
              processingFence := fenceAfter token conversation.processingFence } }
  | windows {s' : State} : s'.chunks = s.chunks → s'.conversation = s.conversation →
      Move chunks conversations allowed s s'

abbrev SessionMove (allowed : SessionCondition) (label : SessionLabel) (s s' : State) : Prop :=
  Move (ChunkUpdate label) (ConversationUpdate label) (allowed label) s s'

theorem State.run_state (choice : Nat) {α : Type} (command : Command α) (s : State) :
    (State.run choice command s).2 = (State.run 0 command s).2 := by
  cases command <;> rfl

section Moves

variable {chunks : Nat → (Chunk → Bool) → (Chunk → Chunk) → Prop}
  {conversations : (ConversationDocument → ConversationDocument) → Prop}
  {allowed : ∀ {α : Type}, Command α → State → Prop}

theorem move_run {α : Type} {command : Command α} {s : State}
    (hcommand : Permits chunks conversations (.send command)) (hallowed : allowed command s) :
    Move chunks conversations allowed s (State.run 0 command s).2 := by
  cases command with
  | updateChunk sequence accepts change token =>
    cases hfound : s.findChunk sequence accepts token with
    | none =>
      have hsame : (State.run 0 (.updateChunk sequence accepts change token) s).2 = s :=
        State.updateChunk_of_findChunk hfound
      rw [hsame]
      exact .nothing
    | some found => exact .chunk hcommand hfound hallowed
  | insertChunk chunk =>
    by_cases hnew : chunk.sequenceNumber ∈ s.chunks.map Chunk.sequenceNumber
    · have hsame : (State.run 0 (.insertChunk chunk) s).2 = s := State.insertChunk_of_mem hnew
      rw [hsame]
      exact .nothing
    · exact .inserted hcommand hnew
  | updateConversation accepts change token =>
    dsimp only [State.run, State.updateConversation]
    split
    · next conversation hconversation =>
      split
      · exact .conversation hcommand hconversation
      · exact .nothing
    · exact .nothing
  | insertWindow window =>
    dsimp only [State.run, State.insertWindow]
    split
    · exact .nothing
    · exact .windows rfl rfl
  | updateWindow windowId accepts change token => exact .windows rfl rfl
  | getConversation => exact .nothing
  | getChunk sequence => exact .nothing
  | listChunks => exact .nothing
  | anyChunk => exact .nothing
  | getWindow windowId => exact .nothing
  | listWindows => exact .nothing
  | emit name => exact .nothing

theorem move_of_performed {α : Type} {command : Command α} {s s' : State}
    {reply : Except Mongo.Error α} (hcommand : Permits chunks conversations (.send command))
    (hallowed : allowed command s) (h : Performed command s reply s') :
    Move chunks conversations allowed s s' := by
  obtain ⟨choice, hanswers⟩ := h
  rcases hanswers.state with hsame | hrun
  · rw [hsame]
    exact .nothing
  · rw [hrun, State.run_state]
    exact move_run hcommand hallowed

theorem Move.chunks_keep {P : Chunk → Prop} {s s' : State}
    (h : Move chunks conversations allowed s s')
    (hpending : ∀ chunk : Chunk, chunk.sttStatus = .pending → P chunk)
    (hupdate : ∀ sequence accepts change token found, chunks sequence accepts change →
      s.findChunk sequence accepts token = some found →
      allowed (.updateChunk sequence accepts change token) s → P found →
      P (found.written change token))
    (hs : ∀ chunk ∈ s.chunks, P chunk) : ∀ chunk ∈ s'.chunks, P chunk := by
  cases h with
  | nothing => exact hs
  | chunk hchange hfound hallowed =>
    intro chunk hmem
    rcases State.mem_updateChunk hfound hmem with ⟨hbefore, -⟩ | rfl
    · exact hs chunk hbefore
    · exact hupdate _ _ _ _ _ hchange hfound hallowed
        (hs _ (State.findChunk_eq_some hfound).1)
  | inserted hnew hsequence =>
    intro chunk hmem
    rw [State.chunks_insertChunk hsequence] at hmem
    rcases Keyed.mem_insertSorted.mp hmem with rfl | hbefore
    · exact hpending chunk hnew
    · exact hs chunk hbefore
  | conversation => exact hs
  | windows hchunks => exact fun chunk hmem => hs chunk (hchunks ▸ hmem)

end Moves

variable {allowed : SessionCondition}

theorem sessionMove {label : SessionLabel} {command : Remote Mongo.Error Command β}
    {j j' : SessionJournal} {reply : β} (hcommand : SessionCommand label command)
    (h : sessionSemantics allowed ⟨label, command⟩ j reply j') :
    SessionMove allowed label j.state j'.state := by
  rcases command with ⟨command⟩
  obtain ⟨hallowed, hperformed, -⟩ := h
  exact move_of_performed hcommand hallowed hperformed

def Entered (allowed : SessionCondition) (label : SessionLabel) (j j' : SessionJournal) : Prop :=
  SessionMove allowed label j.state j'.state ∧ j'.events = ⟨label, j.state, j'.state⟩ :: j.events

abbrev SessionThreads (pool : Pool SessionCommands Unit SessionJournal) : Prop :=
  pool.Issues fun command => SessionCommand command.label command.command

theorem sessionMoves_invariant {pool pool' : Pool SessionCommands Unit SessionJournal}
    (inv : SessionJournal → Prop)
    (hstep : ∀ label j j', inv j → Entered allowed label j j' → inv j')
    (hthreads : SessionThreads pool) (hinv : inv pool.shared)
    (moves : SessionMoves settings allowed pool pool') :
    SessionThreads pool' ∧ inv pool'.shared := by
  refine hthreads.run inv ?_ ?_ ?_ hinv moves
  · rintro j prog ⟨task, rfl⟩
    exact issues_task settings task
  · rintro j j' hj rfl
    exact hj
  · rintro β ⟨label, command⟩ j reply j' hcommand hj hsem
    exact hstep label j j' hj ⟨sessionMove hcommand hsem, hsem.2.2⟩

theorem sessionRun_invariant {start : State} {pool : Pool SessionCommands Unit SessionJournal}
    (inv : SessionJournal → Prop)
    (hstep : ∀ label j j', inv j → Entered allowed label j j' → inv j') (hstart : inv ⟨start, []⟩)
    (run : SessionRun settings allowed start pool) : SessionThreads pool ∧ inv pool.shared := by
  refine sessionMoves_invariant inv hstep ?_ hstart run
  intro prog hmem
  cases hmem

def sessionAfter (settings : Settings) (start : State) (tasks : List SessionTask)
    (order : List Nat) : Pool SessionCommands Unit SessionJournal :=
  Pool.turns (Labelled.answer answer) order
    ⟨tasks.map (SessionTask.program settings), ⟨start, []⟩⟩

theorem sessionRun_spawned {start : State} {tasks : List SessionTask} :
    SessionRun settings allowed start ⟨tasks.map (SessionTask.program settings), ⟨start, []⟩⟩ := by
  induction tasks with
  | nil => exact .refl
  | cons task rest ih => exact ih.tail (.spawn ⟨task, rfl⟩)

def checkCommand (check : ∀ {α : Type}, SessionLabel → Command α → State → Bool) {β : Type}
    (command : SessionCommands β) (j : SessionJournal) : Bool :=
  match command.command with
  | .send request => check command.label request j.state

theorem sessionRun_turns (settings : Settings) (start : State) (tasks : List SessionTask)
    (order : List Nat) (check : ∀ {α : Type}, SessionLabel → Command α → State → Bool)
    (hallowed : ∀ {α : Type} label (command : Command α) s,
      check label command s = true → allowed label command s)
    (h : Pool.turnsPass (Labelled.answer answer) (checkCommand check) order
      (⟨tasks.map (SessionTask.program settings), ⟨start, []⟩⟩ :
        Pool SessionCommands Unit SessionJournal) = true) :
    SessionRun settings allowed start (sessionAfter settings start tasks order) := by
  apply (sessionRun_spawned).trans
  apply Pool.turns_run (checkCommand check) _ order _ h
  rintro _ ⟨label, ⟨command⟩⟩ j hcheck
  exact ⟨hallowed label command j.state hcheck, ⟨0, .answered⟩, rfl⟩

end AiBuddy.Conversation.Session
