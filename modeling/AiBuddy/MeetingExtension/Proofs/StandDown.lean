import AiBuddy.MeetingExtension.Proofs.FullerRecording

/-!
# When merges are stopped

The number of attempts and the last message of a meeting follow from what its merges have left. A
merge is refused exactly where at least two were counted since the last recording was stored and the
last message names a timeout, whatever else these merges came to.
-/

namespace AiBuddy.MeetingExtension

open Program

/-- What `_run_ffmpeg` raises, `ffmpeg_audio.py:433`. -/
def ffmpegTimeout : MergeFault := .extraction "FFmpeg timed out" false

structure Attempt where
  started : Bool := true
  /-- The update of a merge that is completed, with the recording where one is stored. -/
  completed : Option (Option Recording) := none
  fault : Option MergeFault := none
  deriving DecidableEq

namespace Attempt

def begun (attempt : Attempt) (s : State) : State := if attempt.started then s.start.2 else s

def ended (attempt : Attempt) (s : State) : State :=
  match attempt.completed with
  | some (some recording) => ((attempt.begun s).complete recording).2
  | some none => (attempt.begun s).keep.2
  | none => attempt.begun s

def run (attempt : Attempt) (s : State) : State :=
  match attempt.fault with
  | some fault => ((attempt.ended s).fail (Text.take 200 fault.message)).2
  | none => attempt.ended s

def stores (attempt : Attempt) : Bool := (attempt.completed.bind id).isSome

def message (attempt : Attempt) : Option String :=
  attempt.fault.map fun fault => Text.take 200 fault.message

end Attempt

def after (s : State) (history : List Attempt) : State := history.foldr Attempt.run s

def timeouts (history : List Attempt) : Nat :=
  (history.takeWhile fun attempt => attempt.completed = none).countP fun attempt =>
    attempt.fault = some ffmpegTimeout

def countedAttempts (history : List Attempt) : Nat :=
  (history.takeWhile fun attempt => !attempt.stores).countP Attempt.started

def lastMessage (message : String) (history : List Attempt) : String :=
  (history.findSome? Attempt.message).getD message

def namesTimeout (message : String) : Bool := Text.contains "timed out" (Text.lower message)

/-- What `_merge_should_stand_down` raises. -/
def stoodDown : MergeFault :=
  .nonRetryable "Meeting merge timed out repeatedly; leaving the server alone"

/-- `_merge_should_stand_down` raises its error. -/
def StandsDown (process : Nat) (s : State) : Prop :=
  ∃ s', Reach mergeSemantics Eq (mergeShouldStandDown process).run s (.ret (.error stoodDown)) s'

variable {s s' : State} {session : Session} {attempt : Attempt}

def State.tally (s : State) : Option (Int × String) :=
  s.session.map fun session => (session.videoMergeAttempts, session.lastErrorMessage)

def Attempt.counts (attempt : Attempt) (tally : Int × String) : Int × String :=
  (if attempt.stores then 0 else if attempt.started then tally.1 + 1 else tally.1,
    attempt.message.getD tally.2)

theorem tally_run {attempt : Attempt} {s : State} :
    (attempt.run s).tally = s.tally.map attempt.counts := by
  obtain ⟨started, _ | _ | recording, _ | fault⟩ := attempt <;> cases started <;>
    cases hsession : s.session <;>
    simp [Attempt.run, Attempt.ended, Attempt.begun, Attempt.counts, Attempt.stores,
      Attempt.message, State.tally, State.start, State.keep, State.complete, State.fail, hsession]

theorem active_run {attempt : Attempt} {s : State} : (attempt.run s).active = s.active := by
  obtain ⟨started, _ | _ | recording, _ | fault⟩ := attempt <;> cases started <;> rfl

theorem active_after {s : State} {history : List Attempt} :
    (after s history).active = s.active := by
  induction history with
  | nil => rfl
  | cons attempt history ih => exact (active_run).trans ih

theorem tally_after (hsession : s.session = some session)
    (hfresh : session.videoMergeAttempts = 0) {history : List Attempt} :
    (after s history).tally = some ((countedAttempts history : Int),
      lastMessage session.lastErrorMessage history) := by
  induction history with
  | nil => simp [after, State.tally, hsession, hfresh, countedAttempts, lastMessage]
  | cons attempt history ih =>
    rw [after, List.foldr_cons, ← after, tally_run, ih]
    cases hstores : attempt.stores <;> cases hstarted : attempt.started <;>
      cases hmessage : attempt.message <;>
      simp [Attempt.counts, countedAttempts, lastMessage, hstores, hstarted, hmessage]

theorem standsDown_iff {process : Nat} {attempts : Int} {message : String}
    (h : s.tally = some (attempts, message)) :
    StandsDown process s ↔
      process ∉ s.active ∧ maxTimeoutAttempts ≤ attempts ∧ namesTimeout message = true := by
  constructor
  · rintro ⟨s', hreach⟩
    have hsafe : Safe mergeSemantics Eq (fun _ _ _ => True) (fun outcome _ =>
        outcome = .error stoodDown → process ∉ s.active ∧ maxTimeoutAttempts ≤ attempts ∧
          namesTimeout message = true) (mergeShouldStandDown process).run s := by
      refine Safe.raising_bind fun s₁ busy s₂ hsame hstep => ⟨trivial, ?_⟩
      obtain ⟨rfl, rfl⟩ := hstep
      subst hsame
      change Safe mergeSemantics Eq _ _
        (if decide (process ∈ s.active) = true then _ else _ : Merging Bool).run s
      split
      · exact nofun
      · next hidle =>
        refine Safe.attempt_bind fun s₁ found s₂ hsame hstep => ⟨trivial, ?_⟩
        subst hsame
        rcases hstep with ⟨hfound, rfl⟩ | ⟨fault, rfl, -⟩
        · obtain rfl : found = .ok (some (attempts, message)) :=
            hfound.trans (congrArg Except.ok h)
          change Safe mergeSemantics Eq _ _ (if (decide (maxTimeoutAttempts ≤ attempts) &&
            namesTimeout message) = true then _ else _ : Merging Bool).run _
          split
          · next hstop => exact fun _ => ⟨by simpa using hidle, by simpa using hstop⟩
          · exact nofun
        · exact nofun
    have hpost := hsafe.returned (fun _ _ _ h h' => h.trans h') (fun _ => rfl)
      (fun _ _ _ hpost _ => hpost) hreach
    exact hpost rfl
  · rintro ⟨hidle, hattempts, hnames⟩
    have hask : (ask (.isActive process)).run.eval mergeAnswer s =
        (.ok (decide (process ∈ s.active)), s) := rfl
    have hfind : (call .findAttempts).run.eval mergeAnswer s = (.ok s.tally, s) := rfl
    have heval : (mergeShouldStandDown process).run.eval mergeAnswer s =
        (.error stoodDown, s) := by
      rw [mergeShouldStandDown, eval_bind_ok hask, if_neg (by simpa using hidle),
        eval_attempt_bind hfind, h]
      dsimp only
      rw [← namesTimeout, hnames, decide_eq_true hattempts]
      rfl
    have hreach := @reach_eval _ _ _ mergeAnswer mergeSemantics Eq mergeSemantics_answer
      (mergeShouldStandDown process).run s
    rw [heval] at hreach
    exact ⟨s, hreach⟩

/-- The error is raised for repeated timeouts exactly where it is not raised after fewer than two of
them, for merges that were counted all the same and an error message that was kept. -/
theorem standsDown_rightly_iff (s : State) (session : Session) (hsession : s.session = some session)
    (hfresh : session.videoMergeAttempts = 0) (history : List Attempt) (process : Nat) :
    (StandsDown process (after s history) → 2 ≤ timeouts history) ↔
      ¬(process ∉ s.active ∧ timeouts history < 2 ∧ 2 ≤ countedAttempts history ∧
        namesTimeout (lastMessage session.lastErrorMessage history) = true) := by
  rw [standsDown_iff (tally_after hsession hfresh), active_after, maxTimeoutAttempts]
  constructor
  · rintro h ⟨hidle, hfew, hcounted, hnames⟩
    have := h ⟨hidle, by omega, hnames⟩
    omega
  · rintro h ⟨hidle, hcounted, hnames⟩
    by_contra hfew
    exact h ⟨hidle, by omega, by omega, hnames⟩

def freshMeeting : State where
  session := some {}
  chunks _ _ := none
  active := []
  log := []

theorem standsDown_rightly_iff_sample :
    (StandsDown 0 (after freshMeeting [⟨true, none, some ffmpegTimeout⟩]) →
        2 ≤ timeouts [⟨true, none, some ffmpegTimeout⟩]) ↔
      ¬(0 ∉ freshMeeting.active ∧ timeouts [⟨true, none, some ffmpegTimeout⟩] < 2 ∧
        2 ≤ countedAttempts [⟨true, none, some ffmpegTimeout⟩] ∧
        namesTimeout (lastMessage "" [⟨true, none, some ffmpegTimeout⟩]) = true) :=
  standsDown_rightly_iff freshMeeting {} rfl rfl [⟨true, none, some ffmpegTimeout⟩] 0

/-- One timeout, and a worker that was killed. -/
theorem stopped_after_one_timeout :
    StandsDown 0 (after freshMeeting [{}, { fault := some ffmpegTimeout }]) ∧
      timeouts [{}, { fault := some ffmpegTimeout }] = 1 := by
  have htally : (after freshMeeting [{}, { fault := some ffmpegTimeout }]).tally =
      some (2, "FFmpeg timed out") := by decide
  exact ⟨(standsDown_iff htally).mpr (by decide), by decide⟩

/-- A merge that began at `s` has left this. -/
def Leaves (s s' : State) : Prop := ∃ attempt : Attempt, s'.tally = s.tally.map attempt.counts

def Uncounted {β : Type} : MergeCommand β → Prop
  | .start => False
  | .complete _ _ => False
  | .fail _ => False
  | _ => True

theorem tally_map {change : Session → Session} {chunks : Bool → Nat → Option Nat}
    {active : List Nat} {log : List Mark}
    (h : ∀ session, ((change session).videoMergeAttempts, (change session).lastErrorMessage) =
      (session.videoMergeAttempts, session.lastErrorMessage)) :
    State.tally ⟨s.session.map change, chunks, active, log⟩ = s.tally := by
  simp only [State.tally, Option.map_map]
  exact congrArg (fun f => s.session.map f) (funext h)

theorem tally_of_uncounted {β : Type} {command : MergeCommand β} {reply : β}
    (h : Uncounted command) (hstep : mergeSemantics command s reply s') : s'.tally = s.tally := by
  rcases mergeSemantics_cases hstep with ⟨hsession, -⟩ | hupdated
  · rw [State.tally, hsession, State.tally]
  · cases command with
    | start | complete | fail => exact h.elim
    | keep | clearRequest => exact Option.some.inj hupdated ▸ tally_map fun _ => rfl
    | _ => cases hupdated

section Merges

variable {expected : Int} {finalKey : String} {s₀ : State}

abbrev leaveSafe {α : Type} (s₀ : State) (post : Except MergeFault α → State → Prop)
    (prog : Merging α) (s : State) : Prop :=
  Safe mergeSemantics Eq (fun _ s₁ s₂ => Leaves s₀ s₁ → Leaves s₀ s₂) post prog.run s

theorem leaveSafe_uncounted {α : Type} {prog : Merging α} (h : prog.run.Issues Uncounted) :
    leaveSafe s₀ (fun _ s' => s'.tally = s.tally) prog s := by
  refine @Issues.safe_along _ _ _ Uncounted mergeSemantics Eq (fun s s' => s'.tally = s.tally) _
    prog.run (fun _ => rfl) (fun _ _ _ h h' => h'.trans h) (fun _ _ hsame => hsame ▸ rfl) ?_ h s
  intro _ command s reply s' huncounted hstep
  have htally := tally_of_uncounted huncounted hstep
  exact ⟨fun ⟨attempt, hleaves⟩ => ⟨attempt, htally.trans hleaves⟩, htally⟩

def EndsWith (s₀ : State) (outcome : Except MergeFault Unit) (s : State) : Prop :=
  ∃ attempt : Attempt, attempt.fault = none ∧ s.tally = s₀.tally.map attempt.counts ∧
    (outcome = .ok () → attempt.completed.isSome = true)

theorem tally_complete (recording : Recording)
    (h : s.tally = s₀.tally.map (Attempt.counts {})) : (s.complete recording).2.tally =
      s₀.tally.map (Attempt.counts { completed := some (some recording) }) := by
  have hcomplete : (s.complete recording).2.tally = s.tally.map fun tally => (0, tally.2) := by
    simp [State.tally, State.complete, Function.comp_def]
  rw [hcomplete, h, Option.map_map]
  rfl

theorem leaveSafe_mergeStarted {started : Nat × Option Session}
    (h : s.tally = s₀.tally.map (Attempt.counts {})) :
    leaveSafe s₀ (EndsWith s₀) (mergeStarted expected finalKey started) s := by
  have herror : ∀ fault s', s'.tally = s.tally → EndsWith s₀ (.error fault) s' :=
    fun fault s' hsame => ⟨{}, rfl, hsame.trans h, nofun⟩
  refine Safe.then (leaveSafe_uncounted (issues_downloadChunks (fun _ _ => trivial) _)) ?_ herror
  rintro ⟨present, missing⟩ s₁ h₁
  dsimp only
  split
  · exact herror _ _ h₁
  split
  · have hkeep : (call .keep).run.Issues Uncounted := issues_call trivial
    exact (leaveSafe_uncounted hkeep).mono fun _ _ h₂ =>
      ⟨{ completed := some none }, rfl, (h₂.trans h₁).trans h, fun _ => rfl⟩
  refine Safe.then (leaveSafe_uncounted (issues_call trivial)) (fun output s₂ h₂ => ?_)
    fun fault s' hsame => herror _ _ (hsame.trans h₁)
  split
  · exact herror _ _ (h₂.trans h₁)
  refine Safe.then (leaveSafe_uncounted (issues_uploadOutput (fun _ _ => trivial) _ _))
    (fun key s₃ h₃ => ?_) fun fault s' hsame => herror _ _ (hsame.trans (h₂.trans h₁))
  refine Safe.then (leaveSafe_uncounted (issues_ask trivial)) (fun thumbnail s₄ h₄ => ?_)
    fun fault s' hsame => herror _ _ (hsame.trans (h₃.trans (h₂.trans h₁)))
  intro s₅ reply s₆ hsame hstep
  subst hsame
  have hopen := (h₄.trans (h₃.trans (h₂.trans h₁))).trans h
  have hstored := tally_complete ⟨key, missing, present.length, expected, thumbnail⟩ hopen
  rcases hstep with ⟨rfl, rfl⟩ | ⟨fault, rfl, rfl | rfl⟩
  · exact ⟨fun _ => ⟨_, hstored⟩, _, rfl, hstored, fun _ => rfl⟩
  · exact ⟨fun h => h, _, rfl, hopen, nofun⟩
  · exact ⟨fun _ => ⟨_, hstored⟩, _, rfl, hstored, nofun⟩

theorem leaveSafe_mergeOnce {expected : Int} {finalKey : String} {s : State} :
    leaveSafe s (fun outcome s' => ∃ attempt : Attempt, s'.tally = s.tally.map attempt.counts ∧
        (outcome = .ok () → attempt.completed.isSome = true ∧ attempt.fault = none))
      (mergeOnce expected finalKey) s := by
  have hnone : s.tally = s.tally.map (Attempt.counts { started := false }) :=
    Option.map_id'.symm
  have hbegun : s.start.2.tally = s.tally.map (Attempt.counts {}) := by
    simp [State.tally, State.start, Function.comp_def, Attempt.counts, Attempt.stores,
      Attempt.message]
  have hchunks : leaveSafe s (EndsWith s) (mergeChunks expected finalKey) s := by
    intro s₁ reply s₂ hsame hstep
    subst hsame
    rcases hstep with ⟨rfl, rfl⟩ | ⟨fault, rfl, rfl | rfl⟩
    · exact ⟨fun _ => ⟨_, hbegun⟩, leaveSafe_mergeStarted hbegun⟩
    · exact ⟨fun h => h, _, rfl, hnone, nofun⟩
    · exact ⟨fun _ => ⟨_, hbegun⟩, _, rfl, hbegun, nofun⟩
  refine Safe.attempt_bind (hchunks.mono ?_)
  rintro (fault | _) s₁ ⟨attempt, hfault, htally, hcompleted⟩
  · have hfailed : (s₁.fail (Text.take 200 fault.message)).2.tally =
        s.tally.map (Attempt.counts { attempt with fault := some fault }) := by
      have hmessage : (s₁.fail (Text.take 200 fault.message)).2.tally =
          s₁.tally.map fun tally => (tally.1, Text.take 200 fault.message) := by
        simp [State.tally, State.fail, Function.comp_def]
      rw [hmessage, htally, Option.map_map]
      rfl
    intro s₂ reply s₃ hsame hstep
    subst hsame
    rcases hstep with ⟨rfl, rfl⟩ | ⟨_, rfl, rfl | rfl⟩
    · refine ⟨fun _ => ⟨_, hfailed⟩, ?_⟩
      cases fault with
      | extraction message corrupt => cases corrupt <;> exact ⟨_, hfailed, nofun⟩
      | _ => exact ⟨_, hfailed, nofun⟩
    · exact ⟨fun h => h, _, htally, nofun⟩
    · exact ⟨fun _ => ⟨_, hfailed⟩, _, hfailed, nofun⟩
  · exact ⟨attempt, htally, fun _ => ⟨hcompleted rfl, hfault⟩⟩

/-- Wherever a merge stops, the counters are what one attempt leaves, and after a merge that has
returned this attempt was completed without an error. -/
theorem mergeOnce_leaves {prog : Program MergeCommand (Except MergeFault Unit)}
    (h : Reach mergeSemantics Eq (mergeOnce expected finalKey).run s prog s') :
    ∃ attempt : Attempt, s'.tally = (attempt.run s).tally ∧
      (prog = .ret (.ok ()) → attempt.completed.isSome = true ∧ attempt.fault = none) := by
  simp only [tally_run]
  by_cases hreturned : prog = .ret (.ok ())
  · subst hreturned
    obtain ⟨attempt, htally, hcompleted⟩ := leaveSafe_mergeOnce.returned
      (fun _ _ _ h h' => h.trans h') (fun _ => rfl) (fun _ _ _ hpost hsame => hsame ▸ hpost) h
    exact ⟨attempt, htally, fun _ => hcompleted rfl⟩
  · have hleaves : Leaves s s' :=
      Safe.invariant (Leaves s) (fun _ _ _ h h' => h.trans h') (fun _ => rfl)
        (fun _ _ hleaves hsame => hsame ▸ hleaves) (fun _ _ _ hleaves hown => hown hleaves)
        ((leaveSafe_mergeOnce).mono fun _ _ _ => trivial)
        ⟨{ started := false }, Option.map_id'.symm⟩ h
    exact hleaves.imp fun _ htally => ⟨htally, fun h => absurd h hreturned⟩

/-- A meeting without chunks. -/
theorem mergeOnce_leaves_sample : ∃ attempt : Attempt,
    ((mergeOnce 0 "m/final.mp4").run.eval mergeAnswer freshMeeting).2.tally =
      (attempt.run freshMeeting).tally :=
  (mergeOnce_leaves (reach_eval mergeSemantics_answer _ _)).imp fun _ h => h.1

end Merges

end AiBuddy.MeetingExtension
