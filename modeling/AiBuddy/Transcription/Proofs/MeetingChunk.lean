import AiBuddy.Transcription.Proofs.Attempts

/-!
# When a chunk of a meeting is announced

Five writes and publishes follow the completion of the chunk. An attempt that is cut off among
them, or raises, leaves the rest undone, as later deliveries find the chunk COMPLETED.
-/

namespace AiBuddy.Transcription

open Program Conversation Conversation.Session

variable {sequence token : Nat} {s s' : State} {job : Job}

/-- The work of `process_meeting_video_chunk` is done. -/
def MeetingDone (record : Completer) : Prop :=
  record.marked = true ∧ record.ready = true ∧
    ∃ conversation, record.read = some conversation ∧
      (expects conversation = true → record.finalization = true)

/-- Who has marked the recording finds it marked, and who has read the conversation has seen what
the latest attempt has seen at its beginning. -/
structure MeetingKept (s : State) : Prop where
  marked : ∀ token record, s.completers token = some record → record.marked = true →
    s.recording.all Recording.processed = true
  begun : s.lastExpected = true → expects s.session.conversation = true
  informed : s.lastExpected = true → ∀ token record conversation,
    s.completers token = some record → record.read = some conversation →
      expects conversation = true

theorem noted_record {change : Completer → Completer} {other : Nat} {record : Completer}
    (h : (s.noted token change).completers other = some record) :
    ∃ before, s.completers other = some before ∧ (record = before ∨ record = change before) := by
  by_cases hsame : other = token
  · subst hsame
    rw [noted_self, Option.map_eq_some_iff] at h
    obtain ⟨before, hbefore, rfl⟩ := h
    refine ⟨before, hbefore, ?_⟩
    split
    · exact .inl rfl
    · exact .inr rfl
  · rw [noted_other hsame] at h
    exact ⟨record, h, .inl rfl⟩

theorem MeetingKept.noted {change : Completer → Completer} (h : MeetingKept s)
    (hmarked : ∀ record, (change record).marked = record.marked)
    (hread : ∀ record, (change record).read = record.read ∨
      (change record).read = some s.session.conversation) :
    MeetingKept (s.noted token change) := by
  refine ⟨?_, h.begun, ?_⟩
  · intro other record hrecord hmark
    obtain ⟨before, hbefore, rfl | rfl⟩ := noted_record hrecord
    · exact h.marked other record hbefore hmark
    · exact h.marked other before hbefore ((hmarked before).symm.trans hmark)
  · intro hlast other record conversation hrecord hfound
    obtain ⟨before, hbefore, rfl | rfl⟩ := noted_record hrecord
    · exact h.informed hlast other record conversation hbefore hfound
    · rcases hread before with hkept | hnew
      · exact h.informed hlast other before conversation hbefore (hkept ▸ hfound)
      · rw [hnew] at hfound
        obtain rfl := Option.some.inj hfound
        exact h.begun hlast

variable {update : Recording}

theorem MeetingKept.markRecording (h : MeetingKept s)
    (hupdate : update.processed = false → s.recording.any Recording.processed = false) :
    MeetingKept (s.markRecording token update) := by
  refine ⟨?_, h.begun, ?_⟩
  · intro other record hrecord hmark
    have hgoal : (s.recording.map update.over).all Recording.processed = true := by
      cases hprocessed : update.processed with
      | true => cases s.recording with
        | none => rfl
        | some stored => exact hprocessed
      | false =>
        obtain ⟨before, hbefore, hsame⟩ := noted_record hrecord
        have hbeforeMarked : before.marked = true := by
          rcases hsame with rfl | rfl
          · exact hmark
          · simpa [hprocessed] using hmark
        have hall := h.marked other before hbefore hbeforeMarked
        have hnone := hupdate hprocessed
        cases hrecording : s.recording with
        | none => rfl
        | some stored =>
          rw [hrecording, Option.all_some] at hall
          rw [hrecording, Option.any_some, hall] at hnone
          cases hnone
    exact hgoal
  · intro hlast other record conversation hrecord hfound
    obtain ⟨before, hbefore, rfl | rfl⟩ := noted_record hrecord
    · exact h.informed hlast other record conversation hbefore hfound
    · exact h.informed hlast other before conversation hbefore hfound

theorem MeetingKept.reached {session : Session.State} (h : MeetingKept s)
    (hmove : HandlerMove True s.session session) :
    MeetingKept (s.reached sequence token session) := by
  refine ⟨?_, fun hlast => hmove.conversation.1.trans (h.begun hlast), ?_⟩
  · intro other record hrecord hmark
    rcases reached_record hrecord with hbefore | ⟨-, -, rfl⟩
    · exact h.marked other record hbefore hmark
    · cases hmark
  · intro hlast other record conversation hrecord hfound
    rcases reached_record hrecord with hbefore | ⟨-, -, rfl⟩
    · exact h.informed hlast other record conversation hbefore hfound
    · cases hfound

theorem MeetingKept.comes {run : State → State} {reply : Except Fault Unit} (h : MeetingKept s)
    (hrun : MeetingKept (run s)) (hstep : Comes run s reply s') : MeetingKept s' := by
  rcases hstep with ⟨-, rfl⟩ | ⟨fault, -, rfl | rfl⟩
  · exact hrun
  · exact h
  · exact hrun

variable {β : Type}

theorem MeetingKept.performed {command : AttemptCommand β} {reply : β} (h : MeetingKept s)
    (hcommand : Allowed True command)
    (hcondition : (Condition.meeting sequence).attempts command s s')
    (hstep : performs sequence token command s reply s') : MeetingKept s' := by
  cases command with
  | acquire => cases hcommand
  | stillOwned => cases hcommand
  | repository command =>
    obtain ⟨session, hperformed, rfl⟩ := hstep
    have hmove : HandlerMove True s.session session :=
      move_of_performed hcommand trivial hperformed
    unfold State.heard
    split
    · next conversation =>
      obtain ⟨rfl, hreply⟩ := performed_getConversation hperformed
      rw [reached_self, hreply conversation rfl]
      exact h.noted (fun _ => rfl) fun _ => .inr rfl
    · exact h.reached hmove
  | work stage => exact hstep ▸ h
  | transcribe => exact hstep ▸ h
  | markRecording update => exact h.comes (h.markRecording hcondition.2) hstep
  | countProcessed =>
    have hcounted : MeetingKept s.countProcessed := ⟨h.marked, h.begun, h.informed⟩
    exact h.comes hcounted hstep
  | publish announcement =>
    have hpublished : MeetingKept { s with published := announcement :: s.published } :=
      ⟨h.marked, h.begun, h.informed⟩
    refine h.comes (hpublished.noted (fun _ => ?_) fun _ => .inl ?_) hstep
    · cases announcement <;> rfl
    · cases announcement <;> rfl
  | lost => exact hstep ▸ h
  | remember => exact hstep ▸ ⟨h.marked, h.begun, h.informed⟩
  | retry attempt =>
    have hretried : MeetingKept (s.retry attempt) := ⟨h.marked, h.begun, h.informed⟩
    exact h.comes hretried hstep
  | deadLetter => exact hstep ▸ h
  | acknowledge attempt =>
    have hacknowledged : MeetingKept (s.acknowledge attempt) := ⟨h.marked, h.begun, h.informed⟩
    exact h.comes hacknowledged hstep

variable {delivery : Delivery} {request : MeetingChunk}

section Handler

variable {condition : Condition} {inv : State → Prop} {record : Option Completer}

def MeetingReturns (token : Nat) {α : Type} (outcome : Except Fault α) (held : Held) : Prop :=
  held.1 = token ∧ ∀ value, outcome = .ok value → ∀ completer, held.2 = some completer →
    MeetingDone { completer with returned := true }

theorem meetingReturns_error {α : Type} {fault : Fault} {held : Held} (h : held.1 = token) :
    MeetingReturns token (.error fault : Except Fault α) held := by
  refine ⟨h, fun value herror => ?_⟩
  cases herror

theorem holds_announceMeeting (hkeeps : Keeps condition sequence inv) (htoken : token ≠ 0)
    (hworking : Working record)
    (hmarked : ∀ completer, record = some completer → completer.marked = true) :
    Holds (under token (conditioned condition sequence)) (Kept inv) (MeetingReturns token)
      (token, record) announceMeeting.run := by
  refine Holds.raising_then _ (holds_publish hkeeps htoken hworking) ?_
    fun fault held h => meetingReturns_error h.1
  rintro ⟨⟩ ⟨token', ready⟩ ⟨rfl, hready⟩
  obtain rfl : ready = _ := hready rfl
  have hworking' : Working (record.map (Completer.announce .ready)) := hworking.map fun _ => rfl
  refine Holds.raising_then _ (holds_getConversation hkeeps htoken hworking') ?_
    fun fault held h => meetingReturns_error h.1
  rintro conversation ⟨token', read⟩ ⟨rfl, hread⟩
  obtain rfl : read = _ := hread conversation rfl
  split
  · have hfound : Working ((record.map (Completer.announce .ready)).map fun completer =>
        { completer with read := some conversation }) := hworking'.map fun _ => rfl
    refine (holds_publish hkeeps htoken hfound).mono ?_
    rintro (fault | ⟨⟩) ⟨token', final⟩ ⟨rfl, hfinal⟩
    · exact meetingReturns_error rfl
    · obtain rfl : final = _ := hfinal rfl
      refine ⟨rfl, fun value _ completer hcompleter => ?_⟩
      simp only [Option.map_map, Option.map_eq_some_iff] at hcompleter
      obtain ⟨before, hbefore, rfl⟩ := hcompleter
      exact ⟨hmarked before hbefore, rfl, conversation, rfl, fun _ => rfl⟩
  · next hnone =>
    refine ⟨rfl, fun value _ completer hcompleter => ?_⟩
    simp only [Option.map_map, Option.map_eq_some_iff] at hcompleter
    obtain ⟨before, hbefore, rfl⟩ := hcompleter
    refine ⟨hmarked before hbefore, rfl, conversation, rfl, fun hexpects => ?_⟩
    rw [expects_iff, hnone] at hexpects
    cases hexpects

theorem holds_countProcessed (hkeeps : Keeps condition sequence inv) (htoken : token ≠ 0) :
    Holds (under token (conditioned condition sequence)) (Kept inv)
      (fun _ held => held.1 = token ∧ held.2 = record) (token, record)
      (call .countProcessed).run := by
  refine holds_issue hkeeps trivial fun s reply s' hrecord hstep => ⟨rfl, ?_⟩
  rcases hstep with ⟨-, rfl⟩ | ⟨fault, -, rfl | rfl⟩
  · exact hrecord htoken
  · exact hrecord htoken
  · exact hrecord htoken

theorem holds_markChunkProcessed (hkeeps : Keeps condition sequence inv) (htoken : token ≠ 0)
    (hworking : Working record) (hupdate : update.processed = true) :
    Holds (under token (conditioned condition sequence)) (Kept inv)
      (fun outcome held => held.1 = token ∧ (outcome = .ok () →
        held.2 = record.map fun completer => { completer with marked := true }))
      (token, record) (markChunkProcessed update).run := by
  have herror : ∀ {fault : Fault} {held : Held}, held.1 = token →
      held.1 = token ∧ ((.error fault : Except Fault Unit) = .ok () →
        held.2 = record.map fun completer => { completer with marked := true }) := by
    refine fun h => ⟨h, fun hsame => ?_⟩
    cases hsame
  have hmark : Holds (under token (conditioned condition sequence)) (Kept inv)
      (fun outcome held => held.1 = token ∧ (outcome = .ok () →
        held.2 = record.map fun completer => { completer with marked := true }))
      (token, record) (call (.markRecording update)).run := by
    refine holds_call hkeeps trivial htoken (fun _ _ _ hstep => hstep) fun s hrecord => ?_
    have hnoted : (s.markRecording token update).completers token =
        (s.completers token).map fun completer =>
          { completer with marked := completer.marked || update.processed } :=
      noted_working (hrecord.symm ▸ hworking)
    simp only [hnoted, hrecord, hupdate, Bool.or_true]
  refine Holds.raising_then _ hmark ?_ fun fault held h => herror h.1
  rintro ⟨⟩ ⟨token', marked⟩ ⟨rfl, hmarked⟩
  obtain rfl : marked = _ := hmarked rfl
  rw [if_pos hupdate]
  refine (holds_countProcessed hkeeps htoken).mono ?_
  rintro outcome ⟨_, _⟩ ⟨rfl, rfl⟩
  exact ⟨rfl, fun _ => rfl⟩

theorem issues_markChunkProcessed : (markChunkProcessed update).run.Issues (Allowed False) := by
  refine Issues.raising_bind (issues_call trivial) fun _ => ?_
  split
  · exact issues_call trivial
  · trivial

theorem holds_recordMeetingFailure (hkeeps : Keeps condition job.sequence inv) {fault : Fault} :
    Holds (under token (conditioned condition job.sequence)) (Kept inv)
      (fun outcome held => held.1 = token ∧ outcome ≠ .ok ())
      (token, record) (recordMeetingFailure job delivery fault).run := by
  have herror : ∀ {fault : Fault} {held : Held}, held.1 = token →
      held.1 = token ∧ (.error fault : Except Fault Unit) ≠ .ok () := by
    refine fun h => ⟨h, fun hsame => ?_⟩
    cases hsame
  refine Holds.raising_then _ (holds_any hkeeps
    ((issues_markChunkProcessed).mono fun _ => Allowed.weaken)) ?_ fun _ _ => herror
  rintro ⟨⟩ ⟨_, marked⟩ rfl
  refine Holds.raising_then _ (holds_any hkeeps
    ((issues_failTranscriptChunk _).mono fun _ => Allowed.weaken)) ?_ fun _ _ => herror
  rintro failed ⟨_, recorded⟩ rfl
  split
  · exact herror rfl
  · exact herror rfl

theorem issues_fetchMeetingAudio :
    (fetchMeetingAudio sequence request).run.Issues (Allowed True) := by
  refine Issues.raising_bind trivial fun _ => ?_
  refine Issues.raising_bind (issues_call trivial) fun _ => ?_
  split
  · trivial
  · refine Issues.raising_bind (issues_call trivial) fun _ => ?_
    refine Issues.raising_bind (issues_call trivial) fun _ => ?_
    split
    · exact Issues.attempt_bind (issues_call trivial) fun _ => trivial
    · trivial

theorem holds_transcribeMeeting (hkeeps : Keeps condition job.sequence inv) (htoken : token ≠ 0) :
    Holds (under token (conditioned condition job.sequence)) (Kept inv) (MeetingReturns token)
      (token, none) (transcribeMeeting job request delivery).run := by
  have hworking : Working none := by
    intro completer hcompleter
    cases hcompleter
  refine Holds.raising_then _
    (holds_working hkeeps issues_fetchMeetingAudio htoken hworking) ?_
    fun fault held h => meetingReturns_error h.1
  rintro ⟨⟩ ⟨_, fetched⟩ ⟨rfl, hfetched⟩
  refine Holds.raising_then _
    (holds_working hkeeps (issues_call (trivial : Allowed True .transcribe)) htoken hfetched) ?_
    fun fault held h => meetingReturns_error h.1
  rintro result ⟨_, transcribed⟩ ⟨rfl, htranscribed⟩
  refine Holds.raising_then _ (holds_working hkeeps
    (issues_labelled (issues_complete _) (.inl trivial)) htoken htranscribed) ?_
    fun fault held h => meetingReturns_error h.1
  rintro ⟨⟩ ⟨_, completed⟩ ⟨rfl, hcompleted⟩
  refine Holds.raising_then _ (holds_markChunkProcessed hkeeps htoken hcompleted rfl) ?_
    fun fault held h => meetingReturns_error h.1
  rintro ⟨⟩ ⟨_, marked⟩ ⟨rfl, hmarked⟩
  obtain rfl : marked = _ := hmarked rfl
  refine holds_announceMeeting hkeeps htoken (hcompleted.map fun _ => rfl) ?_
  intro completer hcompleter
  obtain ⟨before, -, rfl⟩ := Option.map_eq_some_iff.mp hcompleter
  rfl

/-- `process_meeting_video_chunk` returns only where nothing is left to do for what it has
completed. -/
theorem holds_processMeetingVideoChunk (hkeeps : Keeps condition job.sequence inv)
    (htoken : token ≠ 0) :
    Holds (under token (conditioned condition job.sequence)) (Kept inv) (MeetingReturns token)
      (token, none) (processMeetingVideoChunk job request delivery).run := by
  have hnone : ∀ {held : Held} {outcome : Except Fault Bool}, held = (token, none) →
      MeetingReturns token outcome held := by
    rintro held outcome rfl
    refine ⟨rfl, fun value _ completer hcompleter => ?_⟩
    cases hcompleter
  refine Holds.raising_then _ (holds_quiet hkeeps (issues_read trivial) htoken) ?_
    fun fault held h => hnone h
  rintro existing held rfl
  split
  · exact hnone rfl
  · refine Holds.raising_then _ (holds_quiet hkeeps
      (issues_labelled (issues_mark _ _) (.inr (.inl ⟨_, rfl⟩))) htoken) ?_
      fun fault held h => hnone h
    rintro marked held rfl
    refine Holds.attempt_then (holds_transcribeMeeting hkeeps htoken) ?_
    rintro (fault | ⟨⟩) ⟨token', record⟩ ⟨rfl, hdone⟩
    · dsimp only
      split
      · refine Holds.raising_then _ (holds_recordMeetingFailure hkeeps) ?_
          fun fault held h => meetingReturns_error h.1
        rintro ⟨⟩ held ⟨-, hraised⟩
        exact absurd rfl hraised
      · exact meetingReturns_error rfl
    · exact ⟨rfl, fun value _ => hdone () rfl⟩

end Handler

theorem handling_meetingChunk :
    Handling job (processMeetingVideoChunk job request) (Condition.meeting job.sequence)
      MeetingDone MeetingKept where
  turn hcondition := hcondition.1
  performed hcommand hcondition hstep h := h.performed hcommand hcondition hstep
  returned h := h.noted (fun _ => rfl) fun _ => .inl rfl
  granted := by
    intro s hcondition hunused h
    refine ⟨h.marked, fun hlast => hlast, ?_⟩
    intro hlast token record conversation hrecord hread
    have hle : token ≤ s.tokens := by
      by_contra hlt
      rw [show s.grant.completers token = none from hunused token (Nat.lt_of_not_le hlt)] at hrecord
      cases hrecord
    have hall := hcondition.2 (Nat.succ_ne_self _) hlast token hle
    rw [show s.completers token = some record from hrecord, Option.all_some, hread] at hall
    exact hall
  elsewhere := by
    intro s s' _ hmove h
    refine ⟨?_, ?_, ?_⟩
    · intro token record hrecord hmark
      rw [hmove.completers] at hrecord
      exact hmove.recording (h.marked token record hrecord hmark)
    · intro hlast
      rw [hmove.lastExpected] at hlast
      exact hmove.expected (h.begun hlast)
    · intro hlast token record conversation hrecord hread
      rw [hmove.lastExpected] at hlast
      rw [hmove.completers] at hrecord
      exact h.informed hlast token record conversation hrecord hread
  handled delivery _ htoken :=
    holds_processMeetingVideoChunk (fun _ _ _ _ _ hcommand hcondition hstep hunused h =>
      ⟨h.1.performed hcommand hunused hcondition.1 hstep,
        h.2.performed hcommand hcondition hstep⟩) htoken

theorem meetingAnnounced_of_run {start : State} {pool : AttemptPool}
    (hstart : Requested job.sequence start)
    (hrun : AttemptRun job (processMeetingVideoChunk job request) (Condition.meeting job.sequence)
      start pool) :
    MeetingAnnounced job.sequence pool.shared := by
  have hkept : MeetingKept start := by
    refine ⟨fun token record hrecord => ?_, fun hlast => ?_, fun _ token record _ hrecord => ?_⟩
    · rw [hstart.completers token] at hrecord
      cases hrecord
    · rw [hstart.lastExpected] at hlast
      cases hlast
    · rw [hstart.completers token] at hrecord
      cases hrecord
  obtain ⟨hsound, hmeeting⟩ := (handling_meetingChunk).run hstart hkept hrun
  intro hcopies hcompleted
  obtain ⟨token, record, hrecord⟩ := hsound.completed hcompleted
  have htruthful := hsound.records token record hrecord
  obtain ⟨hmarked, hready, conversation, hread, hfinalization⟩ :=
    htruthful.fulfilled (hsound.back hcopies token record hrecord)
  refine ⟨htruthful.ready hready, hmeeting.marked token record hrecord hmarked, fun hlast => ?_⟩
  exact htruthful.finalization
    (hfinalization (hmeeting.informed hlast token record conversation hrecord hread))

def Issued {β : Type} (command : AttemptCommand β) : Prop :=
  match command with
  | .acquire | .stillOwned => True
  | command => Allowed True command

theorem issued_of_allowed {completing : Prop} {command : AttemptCommand β}
    (h : Allowed completing command) : Issued command := by
  cases command with
  | acquire => trivial
  | stillOwned => trivial
  | _ => exact h.weaken

theorem issues_processMeetingVideoChunk :
    (processMeetingVideoChunk job request delivery).run.Issues (Allowed True) := by
  refine Issues.raising_bind (issues_read trivial) fun existing => ?_
  split
  · trivial
  · refine Issues.raising_bind (issues_labelled (issues_mark _ _) (.inl trivial)) fun marked => ?_
    refine Issues.attempt_bind ?_ fun outcome => ?_
    · refine Issues.raising_bind issues_fetchMeetingAudio fun _ => ?_
      refine Issues.raising_bind (issues_call trivial) fun result => ?_
      refine Issues.raising_bind (issues_labelled (issues_complete _) (.inl trivial)) fun _ => ?_
      refine Issues.raising_bind
        ((issues_markChunkProcessed).mono fun _ => Allowed.weaken) fun _ => ?_
      refine Issues.raising_bind (issues_call trivial) fun _ => ?_
      refine Issues.raising_bind (issues_read trivial) fun conversation => ?_
      split
      · exact issues_call trivial
      · trivial
    · split
      · trivial
      · split
        · refine Issues.raising_bind ?_ fun _ => trivial
          refine Issues.raising_bind
            ((issues_markChunkProcessed).mono fun _ => Allowed.weaken) fun _ => ?_
          refine Issues.raising_bind
            ((issues_failTranscriptChunk _).mono fun _ => Allowed.weaken) fun _ => ?_
          split <;> trivial
        · trivial

theorem issued_processMessage {handler : Delivery → Attempting Bool}
    (hhandler : (handler delivery).run.Issues (Allowed True)) :
    (processMessage job handler delivery).Issues fun command => Issued command.command := by
  have hsettle : (settle handler delivery).run.Issues Issued := by
    refine Issues.raising_bind (hhandler.mono fun _ => issued_of_allowed) fun settled => ?_
    refine Issues.raising_bind (⟨trivial, fun _ => trivial⟩ : (ask .stillOwned).run.Issues Issued)
      fun owned => ?_
    split
    · split
      · refine Issues.raising_bind
          (⟨trivial, fun _ => trivial⟩ : (ask .remember).run.Issues Issued) fun stored => ?_
        split
        · exact ⟨trivial, fun _ => trivial⟩
        · trivial
      · exact ⟨trivial, fun _ => trivial⟩
    · trivial
  have hleased : (processLeased job handler delivery).run.Issues Issued := by
    refine Issues.attempt_bind hsettle fun outcome => ?_
    split
    · trivial
    · split
      · trivial
      · refine Issues.raising_bind (⟨trivial, fun _ => trivial⟩ : (ask .lost).run.Issues Issued)
          fun lost => ?_
        split
        · trivial
        · exact (issues_handleFailure delivery _).mono fun _ => issued_of_allowed
  refine Issues.bind (⟨trivial, fun _ => trivial⟩ : (issue (⟨0, .acquire⟩ :
    AttemptCommands Lease)).Issues fun command => Issued command.command) fun lease => ?_
  rcases lease with _ | _ | _ | token
  · trivial
  · trivial
  · exact ⟨trivial, fun _ => trivial⟩
  · exact Issues.bind (hleased.labelled.mono fun command h => h.2) fun _ => trivial

theorem completed_kept {command : AttemptCommand β} {reply : β} (hcommand : Issued command)
    (hstep : performs sequence token command s reply s')
    (hcompleted : completedIn sequence s.session = true) :
    completedIn sequence s'.session = true := by
  have heffect : Allowed True command → completedIn sequence s'.session = true := by
    intro hallowed
    cases effect_of_performs hallowed hstep with
    | reached hmove => exact hmove.completed hcompleted
    | _ => exact hcompleted
  cases command with
  | acquire =>
    rcases hstep with ⟨-, rfl⟩ | ⟨-, -, rfl⟩ | ⟨-, rfl⟩
    all_goals exact hcompleted
  | stillOwned =>
    rw [hstep]
    exact hcompleted
  | _ => exact heffect hcommand

theorem not_failed_of_step {condition : Condition} {start : State} {pool pool' : AttemptPool}
    (hrun : AttemptRun job (processMeetingVideoChunk job request) condition start pool)
    (hstep : AttemptStep job (processMeetingVideoChunk job request) condition pool pool')
    (hcompleted : completedIn job.sequence pool.shared.session = true) :
    pool'.shared.session.statusAt job.sequence ≠ some .failed := by
  have hnone : (⟨[], start⟩ : AttemptPool).Issues fun command => Issued command.command :=
    fun _ hmem => absurd hmem List.not_mem_nil
  have hissues : pool.Issues fun command => Issued command.command := by
    refine (hnone.run (fun _ => True) ?_ (fun _ _ _ _ => trivial) (fun _ _ _ _ _ _ _ => trivial)
      trivial hrun).1
    rintro s prog ⟨delivery, -, rfl⟩
    exact issued_processMessage issues_processMeetingVideoChunk
  have hkept : ∀ {session : Session.State}, completedIn job.sequence session = true →
      session.statusAt job.sequence ≠ some .failed := by
    intro session hsession hfailed
    rw [completedIn_iff, hfailed] at hsession
    cases hsession
  cases hstep with
  | spawn => exact hkept hcompleted
  | env hmove => exact hmove.2.kept hcompleted
  | call hcommand =>
    have hthread := hissues _ (List.mem_append_right _ List.mem_cons_self)
    exact hkept (completed_kept hthread.1 hcommand.2 hcompleted)

/-- In a run in turn a completed chunk of a meeting is announced and marked once its message is
acknowledged. In any run it never becomes FAILED. -/
theorem meeting_announced {request : MeetingChunk} {start : State}
    (hstart : Requested job.sequence start) :
    (∀ pool, AttemptRun job (processMeetingVideoChunk job request)
        (Condition.meeting job.sequence) start pool → MeetingAnnounced job.sequence pool.shared) ∧
    (∀ pool pool', AttemptRun job (processMeetingVideoChunk job request) Condition.any start pool →
      AttemptStep job (processMeetingVideoChunk job request) Condition.any pool pool' →
      completedIn job.sequence pool.shared.session = true →
        pool'.shared.session.statusAt job.sequence ≠ some .failed) :=
  ⟨fun _ hrun => meetingAnnounced_of_run hstart hrun,
    fun _ _ hrun hstep hcompleted => not_failed_of_step hrun hstep hcompleted⟩

/-! One chunk of a meeting that has ended. -/

def sampleUploaded : State :=
  { session := sampleSession
    recording := some { processingStatus := "UPLOADED", transcriptionStatus := "PENDING" }
    copies := [0] }

theorem sampleUploaded_requested : Requested 1 sampleUploaded :=
  ⟨rfl, List.cons_ne_nil _ _, fun _ => rfl, rfl⟩

def sampleChunk : MeetingChunk := { separated := true, endOffsetMs := 10000 }

/-- `Condition.meeting`, as a test. -/
def checkMeeting {β : Type} (command : AttemptCommands β) (s : State) : Bool :=
  checkInTurn command s &&
    match command.command with
    | .markRecording update => update.processed || !s.recording.any Recording.processed
    | .acquire => s.tokens = 0 && (s.completers 0).isNone
    | _ => true

theorem meeting_of_check (command : AttemptCommands β) (s : State)
    (h : checkMeeting command s = true) :
    (Condition.meeting 1).attempts command.command s (attemptAnswer 1 command s).2 := by
  obtain ⟨hturn, h⟩ := Bool.and_eq_true_iff.mp h
  refine ⟨inTurn_of_check command s hturn, ?_⟩
  obtain ⟨token, command⟩ := command
  cases command with
  | markRecording update =>
    intro hupdate
    simpa [hupdate] using h
  | acquire =>
    intro _ _ other hle
    obtain ⟨htokens, hnone⟩ := Bool.and_eq_true_iff.mp h
    obtain rfl := Nat.le_zero.mp (of_decide_eq_true htokens ▸ hle)
    rw [Option.isNone_iff_eq_none.mp hnone]
    rfl
  | _ => trivial

theorem meeting_announced_sample :
    (deliveriesAfter (processMeetingVideoChunk sampleJob sampleChunk) 1 (List.replicate 14 0)
      sampleUploaded).shared.published = [.finalization 1, .ready] ∧
    (deliveriesAfter (processMeetingVideoChunk sampleJob sampleChunk) 1 (List.replicate 14 0)
      sampleUploaded).shared.copies = [] ∧
    MeetingAnnounced 1 (deliveriesAfter (processMeetingVideoChunk sampleJob sampleChunk) 1
      (List.replicate 14 0) sampleUploaded).shared :=
  ⟨by decide +kernel, by decide +kernel, (meeting_announced sampleUploaded_requested).1 _
    (deliveriesAfter_run checkMeeting meeting_of_check List.mem_cons_self 1 _
      (by decide +kernel))⟩

/-- An attempt completes the chunk and stops. The next delivery is acknowledged, and nothing is
published or marked. -/
theorem meeting_unannounced :
    AttemptRun sampleJob (processMeetingVideoChunk sampleJob sampleChunk) Condition.any
      sampleUploaded
      (deliveriesAfter (processMeetingVideoChunk sampleJob sampleChunk) 2
        [0, 0, 0, 0, 0, 0, 0, 1, 1, 1, 1] sampleUploaded) ∧
    (deliveriesAfter (processMeetingVideoChunk sampleJob sampleChunk) 2
      [0, 0, 0, 0, 0, 0, 0, 1, 1, 1, 1] sampleUploaded).shared.recording =
      sampleUploaded.recording ∧
    ¬ MeetingAnnounced 1 (deliveriesAfter (processMeetingVideoChunk sampleJob sampleChunk) 2
      [0, 0, 0, 0, 0, 0, 0, 1, 1, 1, 1] sampleUploaded).shared := by
  have hpublished : (deliveriesAfter (processMeetingVideoChunk sampleJob sampleChunk) 2
      [0, 0, 0, 0, 0, 0, 0, 1, 1, 1, 1] sampleUploaded).shared.published = [] := by
    decide +kernel
  refine ⟨deliveriesAfter_run (fun _ _ => true) (fun _ _ _ => trivial) List.mem_cons_self 2 _ rfl,
    by decide +kernel, fun h => ?_⟩
  have hready := (h (by decide +kernel) (by decide +kernel)).1
  rw [hpublished] at hready
  cases hready

end AiBuddy.Transcription
