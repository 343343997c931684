import AiBuddy.MeetingExtension.Proofs.FullerRecording

/-!
# When a late chunk is forgotten

Between two updates that clear it, the document has a request if one has come. So the update after a
pass finds one exactly where a request came since the update before it, and only after the last pass
is there no merge that follows.
-/

namespace AiBuddy.MeetingExtension

open Program

variable {s s' : State} {k : Nat} {marks : List Mark}

theorem Elsewhere.refl (s : State) : Elsewhere s s := ⟨⟨0, rfl, by simp⟩, rfl⟩

theorem Elsewhere.trans {s₁ s₂ s₃ : State} (h : Elsewhere s₁ s₂) (h' : Elsewhere s₂ s₃) :
    Elsewhere s₁ s₃ := by
  obtain ⟨count, hlog, hflag⟩ := h.requests
  obtain ⟨count', hlog', hflag'⟩ := h'.requests
  refine ⟨⟨count' + count, ?_, ?_⟩, h'.recorded.trans h.recorded⟩
  · rw [hlog', hlog, List.replicate_add, List.append_assoc]
  · rw [hflag', hflag, Bool.or_assoc]
    congr 1
    rw [← Bool.decide_or]
    exact decide_eq_decide.mpr (by omega)

def Mark.uncleared : Mark → Bool
  | .cleared _ => false
  | _ => true

structure Pushes (marks : List Mark) (s s' : State) : Prop where
  log : s'.log = marks ++ s.log
  passing : ∀ mark ∈ marks, mark ≠ .started ∧ mark.uncleared = true
  flag : s'.remergeRequested = (s.remergeRequested || decide (.requested ∈ marks))

theorem Elsewhere.pushes (h : Elsewhere s s') : ∃ marks, Pushes marks s s' := by
  obtain ⟨count, hlog, hflag⟩ := h.requests
  refine ⟨_, hlog, ?_, ?_⟩
  · intro mark hmark
    rw [List.eq_of_mem_replicate hmark]
    exact ⟨nofun, rfl⟩
  · rw [hflag]
    congr 1
    exact decide_eq_decide.mpr (by simp [List.mem_replicate]; omega)

structure Pass (k : Nat) (s : State) : Prop where
  flag : s.remergeRequested = decide (.requested ∈ s.log.takeWhile Mark.uncleared)
  count : s.log.count .started = k

structure InMerge (k : Nat) (s : State) : Prop extends Pass k s where
  begun : ∃ during rest, s.log = during ++ .started :: rest ∧ .started ∉ during ∧
    ∀ mark ∈ during, mark.uncleared = true

theorem Pass.push (h : Pass k s) (hpush : Pushes marks s s') : Pass k s' := by
  refine ⟨?_, ?_⟩
  · rw [hpush.flag, hpush.log, List.takeWhile_append_of_pos fun mark hmark =>
      (hpush.passing mark hmark).2, h.flag, ← Bool.decide_or]
    exact decide_eq_decide.mpr (by rw [List.mem_append]; exact or_comm)
  · rw [hpush.log, List.count_append, h.count, List.count_eq_zero.mpr, Nat.zero_add]
    exact fun hmem => (hpush.passing _ hmem).1 rfl

theorem InMerge.push (h : InMerge k s) (hpush : Pushes marks s s') : InMerge k s' := by
  obtain ⟨during, rest, hlog, hduring, huncleared⟩ := h.begun
  refine ⟨h.toPass.push hpush, marks ++ during, rest, ?_, ?_, ?_⟩
  · rw [hpush.log, hlog, List.append_assoc]
  · rw [List.mem_append, not_or]
    exact ⟨fun hmem => (hpush.passing _ hmem).1 rfl, hduring⟩
  · intro mark hmark
    rcases List.mem_append.mp hmark with hmark | hmark
    · exact (hpush.passing mark hmark).2
    · exact huncleared mark hmark

/-- What `_merge_passes` ends with: the update after the last merge, and the requests since. -/
structure Ended (s : State) : Prop where
  log : ∃ count found during rest,
    s.log = List.replicate count .requested ++ .cleared found :: (during ++ .started :: rest) ∧
    .started ∉ during ∧ (found = false → .requested ∉ during) ∧
    (found = true → rest.count .started + 1 = maxMergePasses) ∧
    s.remergeRequested = decide (0 < count)

theorem Ended.elsewhere (h : Ended s) (hmove : Elsewhere s s') : Ended s' := by
  obtain ⟨count, found, during, rest, hlog, hduring, hquiet, hlast, hflag⟩ := h.log
  obtain ⟨count', hlog', hflag'⟩ := hmove.requests
  refine ⟨⟨count' + count, found, during, rest, ?_, hduring, hquiet, hlast, ?_⟩⟩
  · rw [hlog', hlog, List.replicate_add, List.append_assoc]
  · rw [hflag', hflag, ← Bool.decide_or]
    exact decide_eq_decide.mpr (by omega)

theorem takeWhile_started {during : List Mark} (h : .started ∉ during) {rest : List Mark} :
    (during ++ .started :: rest).takeWhile (· ≠ .started) = during := by
  have hpassing : ∀ mark ∈ during, decide (mark ≠ .started) = true := by
    intro mark hmark
    exact decide_eq_true fun hsame => h (hsame ▸ hmark)
  rw [List.takeWhile_append_of_pos hpassing, List.takeWhile_cons_of_neg (by simp), List.append_nil]

theorem Ended.noneForgotten_iff (h : Ended s) : NoneForgotten s ↔ ¬ LostRequest s.log := by
  obtain ⟨count, found, during, rest, hlog, hduring, hquiet, hlast, hflag⟩ := h.log
  unfold NoneForgotten
  rw [hflag, hlog]
  cases count with
  | succ count =>
    refine iff_of_true (.inl (by simp)) ?_
    rintro ⟨_, _, hsplit, -⟩
    rw [List.replicate_succ, List.cons_append] at hsplit
    cases hsplit
  | zero =>
    rw [List.replicate_zero, List.nil_append]
    have htake : (Mark.cleared found :: (during ++ .started :: rest)).takeWhile (· ≠ .started) =
        .cleared found :: during := by
      rw [List.takeWhile_cons_of_pos (by simp), takeWhile_started hduring]
    have hrequest : .requested ∈ Mark.cleared found :: during ↔ .requested ∈ during := by simp
    rw [htake, hrequest]
    simp only [Nat.lt_irrefl, decide_false, Bool.false_eq_true, false_or]
    refine not_congr ⟨fun hmem => ?_, ?_⟩
    · cases found with
      | false => exact absurd hmem (hquiet rfl)
      | true => exact ⟨during, rest, rfl, hmem, hduring, hlast rfl⟩
    · rintro ⟨during', rest', hsplit, hmem, hduring', -⟩
      have hrest : during ++ .started :: rest = during' ++ .started :: rest' :=
        (List.cons.inj hsplit).2
      have hsame := congrArg (List.takeWhile (· ≠ Mark.started)) hrest
      rw [takeWhile_started hduring, takeWhile_started hduring'] at hsame
      exact hsame ▸ hmem

def Quiet {β : Type} : MergeCommand β → Prop
  | .start => False
  | .clearRequest => False
  | _ => True

theorem pushes_of_same (hlog : s'.log = s.log)
    (hflag : s'.remergeRequested = s.remergeRequested) : ∃ marks, Pushes marks s s' :=
  ⟨[], hlog, nofun, by simp [hflag]⟩

theorem any_map_session {change : Session → Session}
    (h : ∀ session, (change session).videoRemergeRequested = session.videoRemergeRequested) :
    (s.session.map change).any Session.videoRemergeRequested = s.remergeRequested := by
  cases hsession : s.session <;> simp [State.remergeRequested, hsession, h]

theorem pushes_of_quiet {β : Type} {command : MergeCommand β} {reply : β} (hquiet : Quiet command)
    (h : mergeSemantics command s reply s') : ∃ marks, Pushes marks s s' := by
  rcases mergeSemantics_cases h with ⟨hsession, hlog⟩ | hupdated
  · exact pushes_of_same hlog (by rw [State.remergeRequested, hsession]; rfl)
  · cases command with
    | start | clearRequest => exact hquiet.elim
    | keep | fail =>
      exact Option.some.inj hupdated ▸ pushes_of_same rfl (any_map_session fun _ => rfl)
    | complete jobDir recording =>
      obtain rfl := Option.some.inj hupdated
      have hflag : (State.complete recording s).2.remergeRequested = s.remergeRequested :=
        any_map_session fun _ => rfl
      refine ⟨[.stored recording.mergePresentChunkCount], rfl, ?_, by simp [hflag]⟩
      intro mark hmark
      rw [List.mem_singleton.mp hmark]
      refine ⟨fun hsame => ?_, rfl⟩
      cases hsame
    | _ => cases hupdated

section Merges

abbrev mergeSafe {α : Type} (post : Except MergeFault α → State → Prop) (prog : Merging α)
    (s : State) : Prop :=
  Safe mergeSemantics Elsewhere (fun _ _ _ => True) post prog.run s

theorem InMerge.elsewhere (h : InMerge k s) (hmove : Elsewhere s s') : InMerge k s' := by
  obtain ⟨marks, hpush⟩ := hmove.pushes
  exact h.push hpush

theorem Pass.elsewhere (h : Pass k s) (hmove : Elsewhere s s') : Pass k s' := by
  obtain ⟨marks, hpush⟩ := hmove.pushes
  exact h.push hpush

def Carries (inv : State → Prop) (s s' : State) : Prop := inv s → inv s'

theorem safe_of_quiet {α : Type} {prog : Merging α} {inv : State → Prop}
    (hpush : ∀ {marks s s'}, inv s → Pushes marks s s' → inv s') (h : prog.run.Issues Quiet)
    (hs : inv s) : mergeSafe (fun _ s' => inv s') prog s := by
  have halong : mergeSafe (fun _ s' => Carries inv s s') prog s := by
    refine Issues.safe_along (fun _ h => h) (fun _ _ _ h h' hs => h' (h hs)) ?_ ?_ h s
    · intro s s' hmove hs
      obtain ⟨marks, hmarks⟩ := hmove.pushes
      exact hpush hs hmarks
    · intro _ command s reply s' hquiet hstep
      refine ⟨trivial, fun hs => ?_⟩
      obtain ⟨marks, hmarks⟩ := pushes_of_quiet hquiet hstep
      exact hpush hs hmarks
  exact halong.mono fun _ _ hkept => hkept hs

theorem quiet_mergeStarted {expected : Int} {finalKey : String} {started : Nat × Option Session} :
    (mergeStarted expected finalKey started).run.Issues Quiet := by
  refine Issues.raising_bind (issues_downloadChunks (fun _ _ => trivial) _) fun found => ?_
  dsimp only
  split
  · trivial
  · split
    · exact issues_call trivial
    · refine Issues.raising_bind (issues_call trivial) fun output => ?_
      split
      · trivial
      · refine Issues.raising_bind (issues_uploadOutput (fun _ _ => trivial) _ _) fun key => ?_
        exact Issues.raising_bind (issues_ask trivial) fun thumbnail => issues_call trivial

theorem safe_call {α : Type} {command : MergeCommand (Except MergeFault α)}
    {post : Except MergeFault α → State → Prop}
    (h : ∀ s₁ reply s₂, Elsewhere s s₁ → mergeSemantics command s₁ reply s₂ → post reply s₂) :
    mergeSafe post (call command) s := by
  intro s₁ reply s₂ hmove hstep
  exact ⟨trivial, h s₁ reply s₂ hmove hstep⟩

theorem Pass.start (h : Pass k s) : InMerge (k + 1) (State.start s).2 := by
  refine ⟨⟨?_, ?_⟩, ⟨[], s.log, rfl, List.not_mem_nil, nofun⟩⟩
  · have hflag : (State.start s).2.remergeRequested = s.remergeRequested :=
      any_map_session fun _ => rfl
    rw [hflag, h.flag]
    simp [State.start, List.takeWhile_cons, Mark.uncleared]
  · simp [State.start, h.count]

theorem safe_mergeOnce {expected : Int} {finalKey : String} (h : Pass k s) :
    mergeSafe (fun outcome s' => outcome = .ok () → InMerge (k + 1) s')
      (mergeOnce expected finalKey) s := by
  have hchunks : mergeSafe (fun outcome s' => outcome = .ok () → InMerge (k + 1) s')
      (mergeChunks expected finalKey) s := by
    refine Safe.raising_bind (safe_call fun s₁ reply s₂ hmove hstep => ?_)
    cases reply with
    | error fault => exact nofun
    | ok started =>
      have hbegun : InMerge (k + 1) s₂ := by
        rcases hstep with ⟨-, rfl⟩ | ⟨fault, hne, -⟩
        · exact (h.elsewhere hmove).start
        · cases hne
      exact (safe_of_quiet InMerge.push quiet_mergeStarted hbegun).mono
        fun _ _ hdone _ => hdone
  refine Safe.attempt_bind (hchunks.mono fun outcome s₁ hdone => ?_)
  cases outcome with
  | ok _ => exact fun _ => hdone rfl
  | error fault =>
    refine Safe.raising_bind (safe_call fun s₂ reply s₃ _ _ => ?_)
    cases reply with
    | error raised => exact nofun
    | ok _ =>
      dsimp only [afterOk]
      split <;> exact nofun

theorem InMerge.clearRequest (h : InMerge k s)
    (hlast : s.remergeRequested = true → k = maxMergePasses) :
    Ended (State.clearRequest s).2 := by
  obtain ⟨during, rest, hlog, hduring, huncleared⟩ := h.begun
  have hrequests : s.remergeRequested = false → .requested ∉ during := by
    intro hnone hmem
    rw [h.flag, hlog, List.takeWhile_append_of_pos huncleared] at hnone
    exact of_decide_eq_false hnone (List.mem_append_left _ hmem)
  refine ⟨⟨0, s.remergeRequested, during, rest, ?_, hduring, hrequests, ?_, ?_⟩⟩
  · simp [State.clearRequest, hlog]
  · intro hfound
    rw [← hlast hfound, ← h.count, hlog]
    simp [List.count_append, List.count_eq_zero.mpr hduring]
  · cases hsession : s.session <;> simp [State.clearRequest, State.remergeRequested, hsession]

theorem Pass.clearRequest (h : Pass k s) : Pass k (State.clearRequest s).2 := by
  refine ⟨?_, ?_⟩
  · cases hsession : s.session <;>
      simp [State.clearRequest, State.remergeRequested, hsession, Mark.uncleared]
  · simp [State.clearRequest, h.count]

theorem safe_mergePasses (finalKey : String) (left : Nat) :
    ∀ {k : Nat} {s : State} (expected : Int), k + left = maxMergePasses → Pass k s →
      (left = 0 → Ended s) →
      mergeSafe (fun outcome s' => outcome = .ok () → Ended s')
        (mergePasses finalKey left expected) s := by
  induction left with
  | zero => exact fun _ _ _ hended _ => hended rfl
  | succ left ih =>
    intro k s expected hleft hpass _
    have hexpected : (currentExpectedSequence expected).run.Issues Quiet :=
      issues_currentExpectedSequence trivial expected
    refine Safe.raising_bind ((safe_of_quiet Pass.push hexpected hpass).mono ?_)
    rintro (fault | expected) s₁ hpass₁
    · exact nofun
    refine Safe.raising_bind ((safe_mergeOnce hpass₁).mono ?_)
    rintro (fault | _) s₂ hmerged
    · exact nofun
    refine Safe.raising_bind (safe_call fun s₃ reply s₄ hmove hstep => ?_)
    cases reply with
    | error fault => exact nofun
    | ok found =>
      have hmerge : InMerge (k + 1) s₃ := (hmerged rfl).elsewhere hmove
      obtain ⟨rfl, rfl⟩ : found = s₃.remergeRequested ∧ s₄ = (State.clearRequest s₃).2 := by
        rcases hstep with ⟨hreply, rfl⟩ | ⟨fault, hne, -⟩
        · exact ⟨Except.ok.inj hreply, rfl⟩
        · cases hne
      dsimp only [afterOk]
      split
      · refine ih expected (by omega) hmerge.toPass.clearRequest fun hnone => ?_
        exact hmerge.clearRequest fun _ => by omega
      · next hnone =>
        exact fun _ => hmerge.clearRequest fun hfound => absurd hfound hnone

end Merges

theorem Unmerged.pass (h : Unmerged s) : Pass 0 s := by
  unfold Unmerged at h
  refine ⟨?_, ?_⟩ <;> rw [h] <;> cases s.remergeRequested <;> rfl

/-- When `_merge_passes` returns, no late chunk is forgotten, exactly if the update after the last
pass has not cleared a request that came during the merge of that pass. -/
theorem none_forgotten_iff {finalKey : String} {expected : Int} {start : State}
    (hstart : Unmerged start)
    (hrun : Reach mergeSemantics Elsewhere (mergePasses finalKey maxMergePasses expected).run start
      (.ret (.ok ())) s) :
    NoneForgotten s ↔ ¬ LostRequest s.log := by
  have hsafe := safe_mergePasses finalKey maxMergePasses expected (Nat.zero_add _) hstart.pass nofun
  have hended : Ended s := by
    refine Safe.returned (fun _ _ _ h h' => h.trans h') Elsewhere.refl ?_ hsafe hrun rfl
    exact fun _ _ _ hended hmove hok => (hended hok).elsewhere hmove
  exact hended.noneForgotten_iff

/-! A meeting with one chunk, and a request while FFmpeg is at work. -/

def State.request (s : State) : State :=
  match s.session with
  | some session =>
    { s with session := some { session with videoRemergeRequested := true }
             log := .requested :: s.log }
  | none => s

theorem elsewhere_request {s : State} : Elsewhere s s.request := by
  unfold State.request
  split
  · next session hsession =>
    refine ⟨⟨1, rfl, ?_⟩, ?_⟩
    · simp [State.remergeRequested]
    · simp [State.recordedCount, hsession, Session.recorded]
  · exact .refl s

def oneChunk : State where
  session := some { expectedFinalSequence := 1 }
  chunks muxed sequence := if muxed = false ∧ sequence = 1 then some 90000 else none
  active := []
  log := []

def samplePasses : Program MergeCommand (Except MergeFault Unit) :=
  (mergePasses "meeting.webm" maxMergePasses 1).run

theorem oneChunk_unmerged : Unmerged oneChunk := rfl

theorem samplePasses_reach :
    Reach mergeSemantics Elsewhere samplePasses oneChunk (.ret (.ok ()))
      (samplePasses.eval mergeAnswer oneChunk).2 := by
  have hok : (samplePasses.eval mergeAnswer oneChunk).1 = .ok () := by decide +kernel
  rw [← hok]
  exact reach_eval mergeSemantics_answer samplePasses oneChunk

theorem none_forgotten_iff_sample :
    (samplePasses.eval mergeAnswer oneChunk).2.log = [.cleared false, .stored 1, .started] ∧
      (NoneForgotten (samplePasses.eval mergeAnswer oneChunk).2 ↔
        ¬ LostRequest (samplePasses.eval mergeAnswer oneChunk).2.log) :=
  ⟨by decide +kernel, none_forgotten_iff oneChunk_unmerged samplePasses_reach⟩

/-- A request comes before every `concat_webm_chunks`. -/
def requestBeforeConcat {β : Type} (command : MergeCommand β) (s : State) : State :=
  match command with
  | .concat _ => s.request
  | _ => s

def sampleLate : Except MergeFault Unit × State :=
  samplePasses.eval (fun command s => mergeAnswer command (requestBeforeConcat command s)) oneChunk

theorem late_chunk_forgotten :
    Reach mergeSemantics Elsewhere samplePasses oneChunk (.ret (.ok ())) sampleLate.2 ∧
      Unmerged oneChunk ∧ ¬ NoneForgotten sampleLate.2 := by
  refine ⟨?_, rfl, by decide +kernel⟩
  have hok : sampleLate.1 = .ok () := by decide +kernel
  rw [← hok]
  refine reach_eval_arriving (fun command s => ?_) mergeSemantics_answer samplePasses oneChunk
  cases command with
  | concat sequences => exact elsewhere_request
  | _ => exact .refl s

end AiBuddy.MeetingExtension
