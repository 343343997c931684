import AiBuddy.MeetingExtension.VideoMerge

/-!
# Fuller recordings

The commands that the parts of a merge issue.
-/

namespace AiBuddy.MeetingExtension

open Program

variable {allowed : ∀ {β : Type}, MergeCommand β → Prop}

variable {α : Type}

theorem issues_call {command : MergeCommand (Except MergeFault α)} (h : allowed command) :
    (call command).run.Issues allowed := ⟨h, fun _ => trivial⟩

theorem issues_ask {command : MergeCommand α} (h : allowed command) :
    (ask command).run.Issues allowed := ⟨h, fun _ => trivial⟩

theorem issues_downloadChunks (h : ∀ muxed sequence, allowed (.download muxed sequence))
    (sequences : List Nat) : (downloadChunks sequences).run.Issues allowed := by
  induction sequences with
  | nil => trivial
  | cons sequence rest ih =>
    have hdownload : (downloadMergeChunk sequence).run.Issues allowed := by
      refine Issues.raising_bind (issues_ask (h _ _)) fun size => ?_
      cases size with
      | some size => trivial
      | none => exact Issues.raising_bind (issues_ask (h _ _)) fun _ => trivial
    exact Issues.raising_bind hdownload fun present => Issues.raising_bind ih fun _ => trivial

theorem issues_uploadOutput (h : ∀ key contentType, allowed (.upload key contentType))
    (finalKey : String) (output : Output) : (uploadOutput finalKey output).run.Issues allowed := by
  unfold uploadOutput
  split
  · exact Issues.raising_bind (issues_call (h _ _)) fun _ => trivial
  · split
    · exact Issues.raising_bind (issues_call (h _ _)) fun _ => trivial
    · trivial

theorem issues_currentExpectedSequence (h : allowed MergeCommand.findExpected) (fallback : Int) :
    (currentExpectedSequence fallback).run.Issues allowed := by
  refine Issues.attempt_bind (issues_call h) fun latest => ?_
  cases latest <;> trivial

theorem issues_mergeShouldStandDown (hactive : ∀ process, allowed (.isActive process))
    (hfind : allowed MergeCommand.findAttempts) {process : Nat} :
    (mergeShouldStandDown process).run.Issues allowed := by
  refine Issues.raising_bind (issues_ask (hactive _)) fun active => ?_
  split
  · trivial
  · refine Issues.attempt_bind (issues_call hfind) fun found => ?_
    match found with
    | .error fault => trivial
    | .ok none => trivial
    | .ok (some (attempts, message)) =>
      dsimp only
      split <;> trivial

end AiBuddy.MeetingExtension

/-!
## When a fuller recording is kept

Only the last update of a merge changes the count of a recording. Where none has come since the
first update of a merge, the merge compares its chunks with the count that its last update replaces.
-/

namespace AiBuddy.MeetingExtension

open Program

variable {s s' : State}

structure Onward (s s' : State) : Prop where
  log : ∃ marks, s'.log = marks ++ s.log ∧
    ((∀ count, .stored count ∉ marks) → s'.recordedCount = s.recordedCount)
  grows : ∀ count, s.recordedCount = some count →
    ∃ count', s'.recordedCount = some count' ∧ count ≤ count'

theorem Onward.of_same {marks : List Mark} (hlog : s'.log = marks ++ s.log)
    (hcount : s'.recordedCount = s.recordedCount) : Onward s s' :=
  ⟨⟨marks, hlog, fun _ => hcount⟩, fun count h => ⟨count, hcount.trans h, Int.le_refl _⟩⟩

theorem Onward.of_unchanged (hsession : s'.session = s.session) (hlog : s'.log = s.log) :
    Onward s s' :=
  .of_same (hlog.trans (List.nil_append _).symm) (by rw [State.recordedCount, hsession]; rfl)

theorem Onward.refl (s : State) : Onward s s := .of_unchanged rfl rfl

theorem Onward.trans {s₁ s₂ s₃ : State} (h : Onward s₁ s₂) (h' : Onward s₂ s₃) :
    Onward s₁ s₃ := by
  obtain ⟨marks, hlog, hsame⟩ := h.log
  obtain ⟨marks', hlog', hsame'⟩ := h'.log
  refine ⟨⟨marks' ++ marks, ?_, fun hnone => ?_⟩, fun count hcount => ?_⟩
  · rw [hlog', hlog, List.append_assoc]
  · rw [hsame' fun count hmem => hnone count (List.mem_append_left _ hmem),
      hsame fun count hmem => hnone count (List.mem_append_right _ hmem)]
  · obtain ⟨count₂, hcount₂, hle⟩ := h.grows count hcount
    obtain ⟨count₃, hcount₃, hle'⟩ := h'.grows count₂ hcount₂
    exact ⟨count₃, hcount₃, Int.le_trans hle hle'⟩

theorem Elsewhere.onward (h : Elsewhere s s') : Onward s s' := by
  obtain ⟨count, hlog, -⟩ := h.requests
  exact .of_same hlog h.recorded

def StoresNothing {β : Type} : MergeCommand β → Prop
  | .complete .. => False
  | _ => True

def updated {β : Type} : MergeCommand β → State → Option State
  | .start, s => some s.start.2
  | .keep, s => some s.keep.2
  | .complete _ recording, s => some (s.complete recording).2
  | .fail message, s => some (s.fail message).2
  | .clearRequest, s => some s.clearRequest.2
  | _, _ => none

theorem mergeSemantics_cases {β : Type} {command : MergeCommand β} {reply : β}
    (h : mergeSemantics command s reply s') :
    (s'.session = s.session ∧ s'.log = s.log) ∨ updated command s = some s' := by
  have hcomes : ∀ {α : Type} {run : State → α × State} {reply : Except MergeFault α},
      Comes run s reply s' → s' = s ∨ s' = (run s).2 := by
    rintro α run reply (⟨-, hrun⟩ | ⟨fault, -, hsame | hrun⟩)
    · exact .inr hrun
    · exact .inl hsame
    · exact .inr hrun
  cases command with
  | setActive process active => cases active <;> exact .inl (h ▸ ⟨rfl, rfl⟩)
  | isActive | download => exact .inl (h.2 ▸ ⟨rfl, rfl⟩)
  | concat | upload | thumbnail => exact .inl (h ▸ ⟨rfl, rfl⟩)
  | findAttempts | findExpected => rcases hcomes h with rfl | rfl <;> exact .inl ⟨rfl, rfl⟩
  | start | keep | complete | fail | clearRequest =>
    rcases hcomes h with rfl | rfl
    · exact .inl ⟨rfl, rfl⟩
    · exact .inr rfl

theorem recordedCount_map {change : Session → Session} {chunks : Bool → Nat → Option Nat}
    {active : List Nat} {log : List Mark}
    (h : ∀ session, (change session).finalRecordingS3Key = session.finalRecordingS3Key ∧
      (change session).mergePresentChunkCount = session.mergePresentChunkCount) :
    State.recordedCount ⟨s.session.map change, chunks, active, log⟩ = s.recordedCount := by
  cases hsession : s.session with
  | none => simp [State.recordedCount, hsession]
  | some session => simp [State.recordedCount, Session.recorded, hsession, h session]

theorem onward_start {s : State} : Onward s (State.start s).2 := by
  have hlog : (State.start s).2.log = [.started] ++ s.log := rfl
  exact .of_same hlog (recordedCount_map fun _ => ⟨rfl, rfl⟩)

theorem onward_clearRequest {s : State} : Onward s (State.clearRequest s).2 := by
  have hlog : (State.clearRequest s).2.log = [.cleared s.remergeRequested] ++ s.log := rfl
  exact .of_same hlog (recordedCount_map fun _ => ⟨rfl, rfl⟩)

theorem onward_of_storesNothing {β : Type} {command : MergeCommand β} {reply : β}
    (hnothing : StoresNothing command) (h : mergeSemantics command s reply s') : Onward s s' := by
  rcases mergeSemantics_cases h with ⟨hsession, hlog⟩ | hupdated
  · exact .of_unchanged hsession hlog
  · have hkept : ∀ {change : Session → Session}, (∀ session,
        (change session).finalRecordingS3Key = session.finalRecordingS3Key ∧
          (change session).mergePresentChunkCount = session.mergePresentChunkCount) →
        Onward s { s with session := s.session.map change } :=
      fun hchange => .of_same (List.nil_append _).symm (recordedCount_map hchange)
    cases command with
    | complete => exact hnothing.elim
    | start => exact Option.some.inj hupdated ▸ onward_start
    | clearRequest => exact Option.some.inj hupdated ▸ onward_clearRequest
    | keep | fail => exact Option.some.inj hupdated ▸ hkept fun _ => ⟨rfl, rfl⟩
    | _ => cases hupdated

variable {started : Nat × Option Session}

variable {finalKey : String}

section Programs

abbrev storesApart : Semantics MergeCommand State :=
  fun command s reply s' => StoresApart command s ∧ mergeSemantics command s reply s'

abbrev onwardSafe {α : Type} (post : Except MergeFault α → State → Prop) (prog : Merging α)
    (s : State) : Prop :=
  Safe storesApart Onward (fun _ s s' => Onward s s') post prog.run s

theorem onwardSafe_of_storesNothing {prog : Merging α} (h : prog.run.Issues StoresNothing)
    {s : State} : onwardSafe (fun _ s' => Onward s s') prog s := by
  refine Issues.safe_along .refl (fun _ _ _ h h' => h.trans h') (fun _ _ h => h) ?_ h s
  intro _ command s reply s' hnothing hstep
  have honward := onward_of_storesNothing hnothing hstep.2
  exact ⟨honward, honward⟩

theorem onwardSafe_then {β : Type} {prog : Merging α} {f : α → Merging β}
    {post : Except MergeFault β → State → Prop} (h : prog.run.Issues StoresNothing)
    (herror : ∀ fault s, post (.error fault) s)
    (hnext : ∀ value s', Onward s s' → onwardSafe post (f value) s') :
    onwardSafe post (prog >>= f) s := by
  refine Safe.raising_bind ((onwardSafe_of_storesNothing h).mono ?_)
  rintro (fault | value) s' honward
  · exact herror fault s'
  · exact hnext value s' honward

def Began (started : Nat × Option Session) (s : State) : Prop :=
  s.log.length = started.1 + 1 ∧
    s.recordedCount = started.2.bind fun session =>
      if session.recorded then session.mergePresentChunkCount else none

theorem began_start {s : State} : Began (State.start s).1 (State.start s).2 :=
  ⟨rfl, recordedCount_map fun _ => ⟨rfl, rfl⟩⟩

theorem Began.onward (h : Began started s) (honward : Onward s s')
    (hapart : ∀ count, .stored count ∉ s'.log.take (s'.log.length - (started.1 + 1))) :
    s'.recordedCount = s.recordedCount := by
  obtain ⟨marks, hlog, hsame⟩ := honward.log
  refine hsame fun count hmem => hapart count ?_
  rw [hlog, List.length_append, h.1, Nat.add_sub_cancel, List.take_left]
  exact hmem

theorem onward_complete {present : List Nat} {recording : Recording} (hbegan : Began started s)
    (honward : Onward s s')
    (hapart : ∀ count, .stored count ∉ s'.log.take (s'.log.length - (started.1 + 1)))
    (hfuller : keepsFuller started.2 present = false)
    (hcount : recording.mergePresentChunkCount = present.length)
    (hkey : recording.finalRecordingS3Key ≠ "") : Onward s' (State.complete recording s').2 := by
  refine ⟨⟨[.stored recording.mergePresentChunkCount], rfl, fun hnone => ?_⟩, fun count h => ?_⟩
  · exact absurd List.mem_cons_self (hnone _)
  · have hread := hbegan.onward honward hapart
    rw [h, hbegan.2] at hread
    have hle : count ≤ present.length := by
      cases hprevious : started.2 with
      | none =>
        rw [hprevious] at hread
        cases hread
      | some previous =>
        rw [hprevious, Option.bind_some] at hread
        split at hread
        · next hrecorded =>
          rw [keepsFuller, hprevious, Option.any_some, hrecorded, ← hread] at hfuller
          simpa using hfuller
        · cases hread
    refine ⟨present.length, ?_, hle⟩
    cases hsession : s'.session with
    | none => simp [State.recordedCount, hsession] at h
    | some session =>
      simp [State.recordedCount, State.complete, Session.recorded, hsession, hcount, hkey]

theorem onwardSafe_uploadOutput {output : Output} :
    onwardSafe (fun outcome s' => Onward s s' ∧ ∀ key, outcome = .ok key → key ≠ "")
      (uploadOutput finalKey output) s := by
  have hkey : ∀ (contentType extension : String), extension ≠ "" →
      onwardSafe (fun outcome s' => Onward s s' ∧ ∀ key, outcome = .ok key → key ≠ "") (do
        call (.upload (withoutExtension finalKey ++ extension) contentType)
        return withoutExtension finalKey ++ extension) s := by
    intro contentType extension hextension
    have hupload : (call (.upload (withoutExtension finalKey ++ extension)
        contentType)).run.Issues StoresNothing := issues_call trivial
    refine Safe.raising_bind ((onwardSafe_of_storesNothing hupload).mono ?_)
    rintro (fault | _) s' honward
    · exact ⟨honward, nofun⟩
    · refine ⟨honward, ?_⟩
      rintro key ⟨⟩ hempty
      exact hextension (String.append_eq_empty_iff.mp hempty).2
  unfold uploadOutput
  split
  · exact hkey _ _ (by decide)
  · split
    · exact hkey _ _ (by decide)
    · exact ⟨.refl s, nofun⟩

theorem onwardSafe_complete {present : List Nat} {recording : Recording} {start : State}
    (hbegan : Began started start) (honward : Onward start s)
    (hfuller : keepsFuller started.2 present = false)
    (hcount : recording.mergePresentChunkCount = present.length)
    (hkey : recording.finalRecordingS3Key ≠ "") :
    onwardSafe (fun _ _ => True) (call (.complete started.1 recording)) s := by
  intro s₁ reply s₂ hmove hstep
  refine ⟨?_, trivial⟩
  rcases mergeSemantics_cases hstep.2 with ⟨hsession, hlog⟩ | hupdated
  · exact .of_unchanged hsession hlog
  · exact Option.some.inj hupdated ▸
      onward_complete hbegan (honward.trans hmove) hstep.1 hfuller hcount hkey

theorem onwardSafe_mergeStarted {expected : Int} (hbegan : Began started s) :
    onwardSafe (fun _ _ => True) (mergeStarted expected finalKey started) s := by
  refine onwardSafe_then (issues_downloadChunks (fun _ _ => trivial) _) (fun _ _ => trivial) ?_
  rintro ⟨present, missing⟩ s₁ honward₁
  dsimp only
  split
  · trivial
  split
  · have hkeep : (call .keep).run.Issues StoresNothing := issues_call trivial
    exact (onwardSafe_of_storesNothing hkeep).mono fun _ _ _ => trivial
  next hfuller =>
  refine onwardSafe_then (issues_call trivial) (fun _ _ => trivial) fun output s₂ honward₂ => ?_
  split
  · trivial
  refine Safe.raising_bind ((onwardSafe_uploadOutput).mono ?_)
  rintro (fault | key) s₃ ⟨honward₃, hkey⟩
  · trivial
  refine onwardSafe_then (issues_ask trivial) (fun _ _ => trivial) fun thumbnail s₄ honward₄ => ?_
  have honward := ((honward₁.trans honward₂).trans honward₃).trans honward₄
  exact onwardSafe_complete hbegan honward (Bool.eq_false_iff.mpr hfuller) rfl (hkey key rfl)

theorem onwardSafe_mergeOnce {expected : Int} :
    onwardSafe (fun _ _ => True) (mergeOnce expected finalKey) s := by
  have hchunks : onwardSafe (fun _ _ => True) (mergeChunks expected finalKey) s := by
    intro s₁ reply s₂ _ hstep
    have hnothing : StoresNothing MergeCommand.start := trivial
    refine ⟨onward_of_storesNothing hnothing hstep.2, ?_⟩
    rcases hstep.2 with ⟨rfl, rfl⟩ | ⟨fault, rfl, -⟩
    · exact onwardSafe_mergeStarted began_start
    · trivial
  refine Safe.attempt_bind (hchunks.mono fun outcome s₁ _ => ?_)
  cases outcome with
  | ok _ => trivial
  | error fault =>
    refine onwardSafe_then (issues_call trivial) (fun _ _ => trivial) fun _ s₂ _ => ?_
    split <;> trivial

theorem onwardSafe_mergePasses {left : Nat} :
    ∀ (expected : Int) (s : State),
      onwardSafe (fun _ _ => True) (mergePasses finalKey left expected) s := by
  induction left with
  | zero => exact fun _ _ => trivial
  | succ left ih =>
    intro expected s
    refine onwardSafe_then (issues_currentExpectedSequence trivial _) (fun _ _ => trivial)
      fun expected s₁ _ => ?_
    refine Safe.raising_bind ((onwardSafe_mergeOnce).mono ?_)
    rintro (fault | _) s₂ -
    · trivial
    refine onwardSafe_then (issues_call trivial) (fun _ _ => trivial) fun found s₃ _ => ?_
    split
    · exact ih expected s₃
    · trivial

theorem onwardSafe_process {process : Nat} {request : MergeRequest} :
    onwardSafe (fun _ _ => True) (processMeetingVideoMerge process request) s := by
  unfold processMeetingVideoMerge
  split
  · trivial
  have hvalidated : (raising request.validated).run.Issues StoresNothing := trivial
  refine onwardSafe_then hvalidated (fun _ _ => trivial) fun _ s₁ _ => ?_
  refine onwardSafe_then (issues_mergeShouldStandDown (fun _ => trivial) trivial)
    (fun _ _ => trivial) fun standDown s₂ _ => ?_
  split
  · trivial
  refine onwardSafe_then (issues_ask trivial) (fun _ _ => trivial) fun _ s₃ _ => ?_
  refine Safe.attempt_bind ((onwardSafe_mergePasses _ _).mono fun outcome s₄ _ => ?_)
  exact onwardSafe_then (issues_ask trivial) (fun _ _ => trivial) fun _ s₅ _ => trivial

end Programs

/-- Where no merge has stored a recording between the first and the last update of another, the
count that is kept with the recording never decreases. -/
theorem fuller_recording_kept (start : State) : NeverShrinks StoresApart start := by
  intro pool pool' hrun hlater
  have honward : Onward pool.shared pool'.shared := by
    refine (Pool.Run.invariant (fun _ => True) (fun _ s s' => Onward s s')
      (fun _ _ _ h h' => h.trans h') .refl ?_ ?_ ?_ trivial hrun hlater).2
    · exact fun _ _ _ hmove => ⟨hmove.onward, trivial⟩
    · exact fun _ _ _ _ honward => ⟨honward, trivial⟩
    · rintro _ s - ⟨process, request, rfl⟩
      exact onwardSafe_process
  exact honward.grows

/-! Two processes merge a meeting of two chunks. -/

def chunksUpTo (last : Nat) (muxed : Bool) (sequence : Nat) : Option Nat :=
  if muxed = false ∧ sequence ≤ last then some 90000 else none

def twoChunks : State where
  session := some { expectedFinalSequence := 2 }
  chunks := chunksUpTo 2
  active := []
  log := []

def sampleMerge (process : Nat) : Program MergeCommand (Except MergeFault Unit) :=
  (processMeetingVideoMerge process
    { expectedFinalSequence := 2, finalRecordingS3Key := "meeting.webm" }).run

def bothAtWork : MergePool :=
  Pool.turns mergeAnswer (List.replicate 7 0 ++ List.replicate 5 1)
    ⟨[sampleMerge 0, sampleMerge 1], twoChunks⟩

def fullerStored : MergePool :=
  Pool.turns mergeAnswer (List.replicate 4 0)
    ⟨bothAtWork.threads, { bothAtWork.shared with chunks := chunksUpTo 1 }⟩

def fewerStored : MergePool := Pool.turns mergeAnswer (List.replicate 7 1) fullerStored

theorem sampleMerge_turns {order : List Nat} {pool : MergePool} :
    Relation.ReflTransGen (MergeStep fun _ _ => True) pool (pool.turns mergeAnswer order) :=
  Pool.turns_reach (fun command s => ⟨trivial, mergeSemantics_answer command s⟩) order pool

/-- The second merge compares its one chunk with the document from before the first recording. -/
theorem fuller_recording_replaced :
    fullerStored.shared.recordedCount = some 2 ∧ fewerStored.shared.recordedCount = some 1 ∧
      ¬ NeverShrinks (fun _ _ => True) twoChunks := by
  refine ⟨by decide +kernel, by decide +kernel, fun hnever => ?_⟩
  have hstarted : MergeRun (fun _ _ => True) twoChunks
    ⟨[sampleMerge 0, sampleMerge 1], twoChunks⟩ :=
    (Relation.ReflTransGen.single (.spawn ⟨1, _, rfl⟩)).tail (.spawn ⟨0, _, rfl⟩)
  have hexpired : Elsewhere bothAtWork.shared
      { bothAtWork.shared with chunks := chunksUpTo 1 } :=
    ⟨⟨0, rfl, by simp [State.remergeRequested]⟩, rfl⟩
  have hfuller : MergeRun (fun _ _ => True) twoChunks fullerStored :=
    ((hstarted.trans sampleMerge_turns).tail (.env hexpired)).trans sampleMerge_turns
  obtain ⟨count, hcount, hle⟩ :=
    hnever _ _ hfuller sampleMerge_turns 2 (by decide +kernel)
  have hone : fewerStored.shared.recordedCount = some 1 := by decide +kernel
  obtain rfl := Option.some.inj (hone.symm.trans hcount)
  exact absurd hle (by decide)

end AiBuddy.MeetingExtension
