import AiBuddy.Transcription.Proofs.Attempts

/-!
# When a completed chunk is announced

An attempt that completes the chunk announces it before it returns, unless it finds the conversation
closed. A later delivery finds the chunk COMPLETED and announces nothing, whatever has become of the
attempt that has completed it.
-/

namespace AiBuddy.Transcription

open Program Conversation Conversation.Session

variable {sequence token : Nat} {s s' : State} {job : Job}

/-- The work of `handle_stt_event` is done. -/
def SttDone (record : Completer) : Prop :=
  ∃ conversation, record.read = some conversation ∧
    (isClosed conversation = true ∨
      record.ready = true ∧ (expects conversation = true → record.finalization = true))

def StillClosed (s : State) : Prop :=
  ∀ token record conversation, s.completers token = some record →
    record.read = some conversation → isClosed conversation = true →
      isClosed s.session.conversation = true

theorem StillClosed.noted {change : Completer → Completer} (h : StillClosed s)
    (hchange : ∀ record, (change record).read = record.read ∨
      (change record).read = some s.session.conversation) :
    StillClosed (s.noted token change) := by
  intro other record conversation hrecord hread hclosed
  by_cases hsame : other = token
  · subst hsame
    rw [noted_self, Option.map_eq_some_iff] at hrecord
    obtain ⟨before, hbefore, rfl⟩ := hrecord
    split at hread
    · exact h other before conversation hbefore hread hclosed
    · rcases hchange before with hkept | hfound
      · exact h other before conversation hbefore (hkept ▸ hread) hclosed
      · rw [hfound] at hread
        obtain rfl := Option.some.inj hread
        exact hclosed
  · rw [noted_other hsame] at hrecord
    exact h other record conversation hrecord hread hclosed

theorem StillClosed.effect (h : StillClosed s) (heffect : Effect True sequence token s s') :
    StillClosed s' := by
  cases heffect with
  | nothing => exact h
  | reached hmove =>
    intro other record conversation hrecord hread hclosed
    rcases reached_record hrecord with hbefore | ⟨-, -, rfl⟩
    · exact hmove.conversation.2.trans (h other record conversation hbefore hread hclosed)
    · cases hread
  | heard => exact h.noted fun _ => .inr rfl
  | marked update =>
    have hmarked : StillClosed { s with recording := s.recording.map update.over } := h
    exact hmarked.noted fun _ => .inl rfl
  | counted => exact h
  | published announcement =>
    have hpublished : StillClosed { s with published := announcement :: s.published } := h
    refine hpublished.noted fun _ => .inl ?_
    cases announcement <;> rfl
  | remembered => exact h
  | retried => exact h
  | acknowledged => exact h

variable {reference : AudioReference}

section Handler

variable {condition : Condition} {inv : State → Prop} {record : Option Completer}

def SttReturns (token : Nat) (outcome : Except Fault Bool) (held : Held) : Prop :=
  held.1 = token ∧ ∀ settled, outcome = .ok settled → ∀ completer, held.2 = some completer →
    SttDone { completer with returned := true }

theorem sttReturns_error {fault : Fault} {held : Held} (h : held.1 = token) :
    SttReturns token (.error fault) held := by
  refine ⟨h, fun settled herror => ?_⟩
  cases herror

theorem holds_announceRecorded (hkeeps : Keeps condition sequence inv) (htoken : token ≠ 0)
    (hworking : Working record) :
    Holds (under token (conditioned condition sequence)) (Kept inv) (SttReturns token)
      (token, record) announceRecorded.run := by
  refine Holds.raising_then _ (holds_getConversation hkeeps htoken hworking) ?_
    fun fault held h => sttReturns_error h.1
  rintro conversation ⟨token', record'⟩ ⟨rfl, hrecord⟩
  obtain rfl : record' = _ := hrecord conversation rfl
  dsimp only
  split
  · next hclosed =>
    refine ⟨rfl, fun settled _ completer hcompleter => ?_⟩
    obtain ⟨before, -, rfl⟩ := Option.map_eq_some_iff.mp hcompleter
    exact ⟨conversation, rfl, .inl hclosed⟩
  · have hread : Working (record.map fun completer =>
        { completer with read := some conversation }) := hworking.map fun _ => rfl
    refine Holds.raising_then _ (holds_publish hkeeps htoken hread) ?_
      fun fault held h => sttReturns_error h.1
    rintro ⟨⟩ ⟨token'', record''⟩ ⟨rfl, hready⟩
    obtain rfl : record'' = _ := hready rfl
    split
    · next expectedLast _ =>
      refine Holds.raising_then _ (holds_publish hkeeps htoken (hread.map fun _ => rfl)) ?_
        fun fault held h => sttReturns_error h.1
      rintro ⟨⟩ ⟨token', record'⟩ ⟨rfl, hfinalization⟩
      obtain rfl : record' = _ := hfinalization rfl
      refine ⟨rfl, fun settled _ completer hcompleter => ?_⟩
      simp only [Option.map_map, Option.map_eq_some_iff] at hcompleter
      obtain ⟨before, -, rfl⟩ := hcompleter
      exact ⟨conversation, rfl, .inr ⟨rfl, fun _ => rfl⟩⟩
    · next hnone =>
      refine ⟨rfl, fun settled _ completer hcompleter => ?_⟩
      simp only [Option.map_map, Option.map_eq_some_iff] at hcompleter
      obtain ⟨before, -, rfl⟩ := hcompleter
      refine ⟨conversation, rfl, .inr ⟨rfl, fun hexpects => ?_⟩⟩
      rw [expects_iff, hnone] at hexpects
      cases hexpects

theorem holds_transcribeRecorded (hkeeps : Keeps condition job.sequence inv) (htoken : token ≠ 0)
    {delivery : Delivery} :
    Holds (under token (conditioned condition job.sequence)) (Kept inv) (SttReturns token)
      (token, none) (transcribeRecorded job reference delivery).run := by
  have hworking : Working none := by
    intro completer hcompleter
    cases hcompleter
  have hfetch : (fetchAudio reference).run.Issues (Allowed True) := by
    cases reference with
    | stored validated =>
      refine Issues.raising_bind trivial fun _ => issues_call trivial
    | file => trivial
    | missing => trivial
  refine Holds.raising_then _ (holds_working hkeeps hfetch htoken hworking) ?_
    fun fault held h => sttReturns_error h.1
  rintro ⟨⟩ ⟨_, fetched⟩ ⟨rfl, hfetched⟩
  refine Holds.raising_then _
    (holds_working hkeeps (issues_call (trivial : Allowed True .transcribe)) htoken hfetched) ?_
    fun fault held h => sttReturns_error h.1
  rintro result ⟨_, transcribed⟩ ⟨rfl, htranscribed⟩
  refine Holds.raising_then _ (holds_working hkeeps
    (issues_labelled (issues_complete _) (.inl trivial)) htoken htranscribed) ?_
    fun fault held h => sttReturns_error h.1
  rintro ⟨⟩ ⟨_, completed⟩ ⟨rfl, hcompleted⟩
  exact holds_announceRecorded hkeeps htoken hcompleted

theorem holds_handleSttEvent (hkeeps : Keeps condition job.sequence inv) (htoken : token ≠ 0)
    {delivery : Delivery} :
    Holds (under token (conditioned condition job.sequence)) (Kept inv) (SttReturns token)
      (token, none) (handleSttEvent job reference delivery).run := by
  have hnone : ∀ {held : Held} {outcome : Except Fault Bool}, held = (token, none) →
      SttReturns token outcome held := by
    rintro held outcome rfl
    refine ⟨rfl, fun settled _ completer hcompleter => ?_⟩
    cases hcompleter
  refine Holds.raising_then _ (holds_quiet hkeeps (issues_read trivial) htoken) ?_
    fun fault held h => hnone h
  rintro existing held rfl
  dsimp only
  split
  · exact hnone rfl
  · split
    · exact hnone rfl
    · refine Holds.raising_then _ (holds_quiet hkeeps
        (issues_labelled (issues_mark _ _) (.inr (.inl ⟨_, rfl⟩))) htoken) ?_
        fun fault held h => hnone h
      rintro marked held rfl
      refine Holds.attempt_then (holds_transcribeRecorded hkeeps htoken) ?_
      rintro (fault | settled) ⟨token', record⟩ ⟨rfl, hdone⟩
      · dsimp only
        split
        · exact sttReturns_error rfl
        · have hfailure : (recordSttSequenceFailure job delivery fault existing false).run.Issues
              (Allowed True) :=
            (issues_recordSttSequenceFailure delivery fault existing false).mono fun _ =>
              Allowed.weaken
          refine Holds.raising_then _ (holds_any hkeeps hfailure) ?_
            fun fault held h => sttReturns_error h
          rintro ⟨⟩ held hheld
          split
          · exact sttReturns_error hheld
          · exact sttReturns_error hheld
      · exact ⟨rfl, hdone⟩

end Handler

theorem handling_sttEvent :
    Handling job (handleSttEvent job reference) (Condition.inTurn job.sequence) SttDone
      StillClosed where
  turn hcondition := hcondition
  performed hcommand _ hstep h := h.effect (effect_of_performs hcommand hstep)
  returned h := h.noted fun _ => .inl rfl
  granted _ _ h := h
  elsewhere := by
    intro s s' hothers hmove h token record conversation hrecord hread hclosed
    rw [hmove.completers] at hrecord
    exact hothers ⟨token, record, conversation, hrecord, hread, hclosed⟩
      (h token record conversation hrecord hread hclosed)
  handled delivery _ htoken :=
    holds_handleSttEvent (fun token command s reply s' hcommand hcondition hstep hunused h =>
      ⟨h.1.performed hcommand hunused hcondition hstep,
        h.2.effect (effect_of_performs hcommand hstep)⟩) htoken

/-- In a run in turn a completed chunk is announced once its message is acknowledged. -/
theorem completed_announced {reference : AudioReference} {start : State} {pool : AttemptPool}
    (hstart : Requested job.sequence start)
    (hrun : AttemptRun job (handleSttEvent job reference) (Condition.inTurn job.sequence) start
      pool) :
    Announced job.sequence pool.shared := by
  have hclosed : StillClosed start := by
    intro token record conversation hrecord
    rw [hstart.completers token] at hrecord
    cases hrecord
  obtain ⟨hsound, hstill⟩ := (handling_sttEvent).run hstart hclosed hrun
  intro hcopies hcompleted hopen
  have hdone : ∀ token record, pool.shared.completers token = some record →
      record.ready = true ∧ (record.expected = true → record.finalization = true) := by
    intro token record hrecord
    have htruthful := hsound.records token record hrecord
    obtain ⟨conversation, hread, hfound⟩ :=
      htruthful.fulfilled (hsound.back hcopies token record hrecord)
    rcases hfound with hclosed | ⟨hready, hfinalization⟩
    · rw [hstill token record conversation hrecord hread hclosed] at hopen
      cases hopen
    · exact ⟨hready, fun hexpected => hfinalization (htruthful.read conversation hread hexpected)⟩
  refine ⟨?_, ?_⟩
  · obtain ⟨token, record, hrecord⟩ := hsound.completed hcompleted
    exact (hsound.records token record hrecord).ready (hdone token record hrecord).1
  · rintro ⟨token, record, hrecord, hexpected⟩
    exact (hsound.records token record hrecord).finalization
      ((hdone token record hrecord).2 hexpected)

def sampleRequested : State :=
  { session := sampleSession
    copies := [0] }

theorem sampleRequested_requested : Requested 1 sampleRequested :=
  ⟨rfl, List.cons_ne_nil _ _, fun _ => rfl, rfl⟩

theorem completed_announced_sample :
    (deliveriesAfter (handleSttEvent sampleJob .file) 1 (List.replicate 12 0)
      sampleRequested).shared.published = [.finalization 1, .ready] ∧
    Announced 1 (deliveriesAfter (handleSttEvent sampleJob .file) 1 (List.replicate 12 0)
      sampleRequested).shared :=
  ⟨by decide +kernel, completed_announced sampleRequested_requested
    (deliveriesAfter_run checkInTurn inTurn_of_check List.mem_cons_self 1 _ (by decide +kernel))⟩

/-- An attempt completes the chunk and stops. The next delivery finds the chunk COMPLETED and is
acknowledged, and nothing is published. -/
theorem completed_unannounced :
    AttemptRun sampleJob (handleSttEvent sampleJob .file) Condition.any sampleRequested
      (deliveriesAfter (handleSttEvent sampleJob .file) 2 [0, 0, 0, 0, 0, 0, 1, 1, 1, 1, 1]
        sampleRequested) ∧
    (deliveriesAfter (handleSttEvent sampleJob .file) 2 [0, 0, 0, 0, 0, 0, 1, 1, 1, 1, 1]
      sampleRequested).shared.published = [] ∧
    ¬ Announced 1 (deliveriesAfter (handleSttEvent sampleJob .file) 2
      [0, 0, 0, 0, 0, 0, 1, 1, 1, 1, 1] sampleRequested).shared := by
  have hpublished : (deliveriesAfter (handleSttEvent sampleJob .file) 2
      [0, 0, 0, 0, 0, 0, 1, 1, 1, 1, 1] sampleRequested).shared.published = [] := by
    decide +kernel
  refine ⟨deliveriesAfter_run (fun _ _ => true) (fun _ _ _ => trivial) List.mem_cons_self 2 _ rfl,
    hpublished, fun h => ?_⟩
  have hready := (h (by decide +kernel) (by decide +kernel) (by decide +kernel)).1
  rw [hpublished] at hready
  cases hready

end AiBuddy.Transcription
