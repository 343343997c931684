import AiBuddy.DailyBriefing.Proofs.Claims

/-!
# The claim of a retried job

What a failed call of `handle` leaves behind decides what `claim` answers to the copy of its event,
which has another event id.
-/

namespace AiBuddy.DailyBriefing

open Program Queue.MongoFence Conversation.Session

/-- The failure leads to a copy on the retry stream, `streams.py:617`. -/
def retried (settings : Settings) (job : JobCall) (error : BriefingError) : Bool :=
  !error.leavesPending && !(error matches .nonRetryable _) &&
    decide (job.attempt < settings.dailyBriefingMaxRetries)

def storeAnswer (issuer : Issuer) {β : Type} (command : StoreCommand β) (s : State) : β × State :=
  runAnswer (.store issuer command) s

/-- What `claim` answers to a job that nobody disturbs. -/
def claimAnswer (jobId : String) (s : State) : Except BriefingError ClaimState :=
  ((claim jobId).run.eval (storeAnswer none) s).1

def Briefing.free (now : Int) (briefing : Briefing) : Bool :=
  briefing.status ≠ .processing || briefing.claimedAt.any (· ≤ now - claimStale)

def leavesFree (now : Int) (before : Option Briefing) (writes : List Write) : Bool :=
  match writes with
  | [] => before.all (Briefing.free now)
  | .claim _ claimedAt :: _ => claimedAt ≤ now - claimStale
  | _ :: _ => true

def OfJob (jobId : String) {β : Type} (command : StoreCommand β) : Prop :=
  match command with
  | .utcNow => True
  | .mongo command =>
    match command.write? with
    | some (.reserve, _) => False
    | some (.claim other _, _) => other = jobId
    | _ => True

variable {α : Type} {write : Write}

variable {settings : Settings} {job : JobCall}

section Issued

variable {jobId : String}

theorem ofJob_asked {command : Command α} (h : OfJob jobId (.mongo command)) :
    (asked command).run.Issues (OfJob jobId) := ⟨h, fun _ => trivial⟩

theorem ofJob_claimUpdate {now : Int} : (claimUpdate jobId now).run.Issues (OfJob jobId) := by
  refine Issues.raising_bind (ofJob_asked rfl) fun updated => ?_
  rcases updated with _ | briefing
  · exact Issues.raising_bind (ofJob_asked trivial) fun _ => trivial
  · trivial

theorem ofJob_claim : (claim jobId).run.Issues (OfJob jobId) := by
  refine Issues.raising_bind (ofJob_asked trivial) fun existing => ?_
  split
  · trivial
  · refine Issues.raising_bind ⟨trivial, fun _ => trivial⟩ fun now => ?_
    split
    · trivial
    · split
      · exact ofJob_claimUpdate
      · refine Issues.attempt_bind (ofJob_asked rfl) fun outcome => ?_
        rcases outcome with error | ⟨⟩
        · dsimp only
          split
          · refine Issues.raising_bind (ofJob_asked trivial) fun existing => ?_
            split
            · trivial
            · exact ofJob_claimUpdate
          · trivial
        · trivial

theorem ofJob_fencedWrite {holding : Holding} {upsert : Bool}
    (h : ∀ token, OfJob jobId (.mongo (.update write token))) :
    (fencedWrite holding write upsert).run.Issues (OfJob jobId) := by
  have hupsert : ∀ token, OfJob jobId (.mongo (.upsert write token)) := h
  have hprobe : ∀ token, (rejectIfNewer holding token).run.Issues (OfJob jobId) := by
    intro token
    refine Issues.raising_bind (ofJob_asked trivial) fun existing => ?_
    split <;> trivial
  unfold fencedWrite
  split
  · trivial
  · split
    · exact ofJob_asked (hupsert none)
    · exact Issues.raising_bind (ofJob_asked (h none)) fun _ => trivial
  · next token _ =>
    refine Issues.raising_bind (ofJob_asked (h _)) fun updated => ?_
    rcases updated with _ | briefing
    · refine Issues.raising_bind (hprobe token) fun _ => ?_
      split
      · refine Issues.attempt_bind (ofJob_asked (hupsert _)) fun outcome => ?_
        rcases outcome with error | ⟨⟩
        · dsimp only
          split
          · exact Issues.raising_bind (hprobe token) fun _ => trivial
          · trivial
        · trivial
      · trivial
    · trivial

theorem ofJob_generateBriefing : (generateBriefing settings job).run.Issues (OfJob jobId) := by
  refine Issues.raising_bind trivial fun bundle => ?_
  split
  · trivial
  · split
    · exact Issues.raising_bind (ofJob_asked trivial) fun _ => trivial
    · refine Issues.raising_bind trivial fun generated => ?_
      refine Issues.raising_bind trivial fun _ => ?_
      exact ofJob_fencedWrite fun _ => trivial

theorem ofJob_handle : (handle settings job).run.Issues (OfJob job.eventId) := by
  unfold handle
  split
  · trivial
  · refine Issues.raising_bind trivial fun _ => ?_
    refine Issues.raising_bind ofJob_claim fun state => ?_
    cases state with
    | found => trivial
    | busy => trivial
    | claimed =>
      refine Issues.attempt_bind ofJob_generateBriefing fun outcome => ?_
      rcases outcome with error | ⟨⟩
      · show (afterGeneration job (.error error)).run.Issues _
        unfold afterGeneration
        dsimp only
        split
        · refine Issues.raising_bind (Issues.raising_bind trivial fun _ => ?_) fun _ => trivial
          exact ofJob_fencedWrite fun _ => trivial
        · trivial
      · trivial

end Issued

def LeftBy (jobId : String) (write : Write) (briefing : Briefing) : Prop :=
  match write with
  | .reserve => briefing.status = .pending
  | .claim _ claimedAt =>
    briefing.status = .processing ∧ briefing.claimedAt = some claimedAt ∧
      briefing.claimedBy = some jobId
  | .skip .. => briefing.status = .skipped
  | .fail .. => briefing.status = .failed
  | .ready .. => briefing.status = .ready

def Left (jobId : String) (before : Option Briefing) (s : State) : Prop :=
  match s.writes with
  | [] => s.briefing = before
  | write :: _ => ∃ briefing, s.briefing = some briefing ∧ LeftBy jobId write briefing

theorem leftBy_change {jobId : String} (h : ∀ other now, write = .claim other now → other = jobId)
    {briefing : Briefing} {fence : Option Int} :
    LeftBy jobId write { write.change briefing with processingFence := fence } := by
  cases write with
  | claim other now =>
    obtain rfl := h other now rfl
    exact ⟨rfl, rfl, rfl⟩
  | _ => rfl

theorem leftBy_result {jobId : String} {command : Command α} {token : Option Int}
    {before : Option Briefing} {new : Briefing} (hcommand : OfJob jobId (.mongo command))
    (hwrite : command.write? = some (write, token)) (hresult : command.result before = some new) :
    LeftBy jobId write new := by
  have hjob : ∀ other now, write = .claim other now → other = jobId := by
    rintro other now rfl
    simpa only [OfJob, hwrite] using hcommand
  cases command with
  | find => cases hwrite
  | insert write =>
    cases hwrite
    cases before with
    | none =>
      obtain rfl : write.seed = new := Option.some.inj hresult
      exact leftBy_change hjob
    | some briefing => cases hresult
  | update write token =>
    cases hwrite
    cases before with
    | none => cases hresult
    | some briefing =>
      rw [Command.result] at hresult
      split at hresult
      · obtain rfl := Option.some.inj hresult
        exact leftBy_change hjob
      · cases hresult
  | upsert write token =>
    cases hwrite
    obtain rfl := Option.some.inj hresult
    exact leftBy_change hjob

variable {s : State}

theorem Left.perform {jobId : String} {before : Option Briefing} {command : Command α}
    {issuer : Issuer} (h : Left jobId before s) (hcommand : OfJob jobId (.mongo command)) :
    Left jobId before (s.perform issuer command) := by
  cases hresult : command.result s.briefing with
  | none =>
    rw [State.perform_of_none hresult]
    exact h
  | some new =>
    cases hwrite : command.write? with
    | none =>
      cases command with
      | find => cases hresult
      | _ => cases hwrite
    | some pair =>
      rw [State.perform_of_result hwrite hresult]
      exact ⟨new, rfl, leftBy_result hcommand hwrite hresult⟩

theorem left_handle {issuer : Issuer} {s' : State}
    {rest : Program StoreCommand (Except BriefingError Unit)} (hwrites : s.writes = [])
    (hreach : Reach (stores (fun _ _ _ => True) issuer) Later (handle settings job).run s rest s') :
    Left job.eventId s.briefing s' := by
  have hstart : Left job.eventId s.briefing s := by
    rw [Left, hwrites]
  refine (Issues.reach (Left job.eventId s.briefing) ?_ ?_ ofJob_handle hstart hreach).1
  · rintro s₁ s₂ hleft ⟨clock, -, rfl⟩
    exact hleft
  · intro β command s₁ reply s₂ hcommand hleft hstep
    cases command with
    | mongo command =>
      rcases hstep.2.state with rfl | rfl
      · exact hleft
      · exact hleft.perform hcommand
    | utcNow =>
      rw [hstep.2]
      exact hleft

variable {briefing : Briefing}

theorem claimUpdate_eval {jobId : String} {now : Int} (hbriefing : s.briefing = some briefing) :
    ((claimUpdate jobId now).run.eval (storeAnswer none) s).1 =
      .ok (if (Write.claim jobId now).accepts briefing then .claimed else .busy) := by
  have hfence : fenceAllows none briefing.processingFence = true := rfl
  have hupdate : (asked (.update (.claim jobId now) none)).run.eval (storeAnswer none) s =
      (.ok ((Command.update (.claim jobId now) none).result s.briefing),
        s.perform none (.update (.claim jobId now) none)) := rfl
  rw [claimUpdate, eval_bind_ok hupdate, hbriefing, Command.result, hfence, Bool.and_true]
  by_cases haccepts : (Write.claim jobId now).accepts briefing = true
  · rw [if_pos haccepts, if_pos haccepts]
    rfl
  · rw [if_neg haccepts, if_neg haccepts]
    rfl

theorem claimAnswer_of_some {jobId : String} (hbriefing : s.briefing = some briefing) :
    claimAnswer jobId s = .ok
      (if briefing.status = .ready then .found
        else if briefing.heldFrom jobId s.clock then .busy
        else if (Write.claim jobId s.clock).accepts briefing then .claimed else .busy) := by
  have hfind : (asked .find).run.eval (storeAnswer none) s = (.ok (some briefing), s) := by
    rw [← hbriefing]
    rfl
  have hnow : utcNow.run.eval (storeAnswer none) s = (.ok s.clock, s) := rfl
  rw [claimAnswer, claim, eval_bind_ok hfind]
  by_cases hready : briefing.status = .ready
  · rw [if_pos hready, if_pos (by simpa using hready)]
    rfl
  · rw [if_neg hready, if_neg (by simpa using hready), eval_bind_ok hnow]
    by_cases hheld : briefing.heldFrom jobId s.clock = true
    · rw [if_pos hheld, if_pos (by simpa using hheld)]
      rfl
    · rw [if_neg hheld, if_neg (by simpa using hheld), if_pos Option.isSome_some]
      exact claimUpdate_eval hbriefing

theorem claimAnswer_of_none {jobId : String} (hbriefing : s.briefing = none) :
    claimAnswer jobId s = .ok .claimed := by
  have hfind : (asked .find).run.eval (storeAnswer none) s = (.ok none, s) := by
    rw [← hbriefing]
    rfl
  have hnow : utcNow.run.eval (storeAnswer none) s = (.ok s.clock, s) := rfl
  have hinsert : (asked (.insert (.claim jobId s.clock))).run.eval (storeAnswer none) s =
      (.ok (), s.perform none (.insert (.claim jobId s.clock))) := by
    show (((Command.insert (.claim jobId s.clock)).reply s.briefing).mapError _, _) = _
    rw [hbriefing]
    rfl
  rw [claimAnswer, claim, eval_bind_ok hfind, if_neg (by simp), eval_bind_ok hnow, if_neg (by simp),
    if_neg (by simp), eval_attempt_bind hinsert]
  rfl

/-- `claim` does not answer `busy`. -/
def ClaimsOrFinds (jobId : String) (s : State) : Prop :=
  claimAnswer jobId s = .ok .claimed ∨ claimAnswer jobId s = .ok .found

theorem claims_of_not_processing {jobId : String} (hbriefing : s.briefing = some briefing)
    (hstatus : briefing.status ≠ .processing) :
    ClaimsOrFinds jobId s := by
  have hheld : briefing.heldFrom jobId s.clock = false := by simp [Briefing.heldFrom, hstatus]
  rw [ClaimsOrFinds, claimAnswer_of_some hbriefing, hheld]
  cases hcase : briefing.status with
  | processing => exact absurd hcase hstatus
  | ready => simp
  | _ => simp [Write.accepts, hcase]

theorem claims_of_processing {jobId : String} (hbriefing : s.briefing = some briefing)
    (hstatus : briefing.status = .processing) (hforeign : briefing.claimedBy ≠ some jobId) :
    ClaimsOrFinds jobId s ↔ briefing.claimedAt.any (· ≤ s.clock - claimStale) = true := by
  have hready : briefing.status ≠ .ready := by
    rw [hstatus]
    nofun
  have haccepts : (Write.claim jobId s.clock).accepts briefing =
      briefing.claimedAt.any (· ≤ s.clock - claimStale) := by
    simp [Write.accepts, hstatus, hforeign]
  have hheld : briefing.heldFrom jobId s.clock =
      briefing.claimedAt.any (s.clock - claimStale < ·) := by
    simp [Briefing.heldFrom, hstatus, hforeign]
  rw [ClaimsOrFinds, claimAnswer_of_some hbriefing, if_neg hready, hheld, haccepts]
  cases briefing.claimedAt with
  | none => simp
  | some claimedAt =>
    by_cases hstale : claimedAt ≤ s.clock - claimStale
    · simp [hstale, Int.not_lt.mpr hstale]
    · simp [hstale, Int.not_le.mp hstale]

theorem claims_iff_free {jobId : String} (hbriefing : s.briefing = some briefing)
    (hforeign : briefing.claimedBy ≠ some jobId) :
    ClaimsOrFinds jobId s ↔ briefing.free s.clock = true := by
  by_cases hstatus : briefing.status = .processing
  · rw [claims_of_processing hbriefing hstatus hforeign]
    simp [Briefing.free, hstatus]
  · simp [claims_of_not_processing hbriefing hstatus, Briefing.free, hstatus]

/-- The claim of the copy succeeds, or finds the briefing READY, if and only if the failed call has
not left a claim behind that is not stale. -/
theorem retry_claims {settings : Settings} {job : JobCall} {issuer : Issuer} {s s' s'' : State}
    {error : BriefingError} {jobId : String} (hwrites : s.writes = [])
    (hreach : Reach (stores (fun _ _ _ => True) issuer) Later (handle settings job).run s
      (.ret (.error error)) s')
    (hlater : Later s' s'') (hnew : jobId ≠ job.eventId)
    (hforeign : ∀ briefing, s.briefing = some briefing → briefing.claimedBy ≠ some jobId) :
    ClaimsOrFinds jobId s'' ↔ leavesFree s''.clock s.briefing s'.writes = true := by
  have hleft := left_handle hwrites hreach
  have hsame : s''.briefing = s'.briefing := by
    obtain ⟨clock, -, rfl⟩ := hlater
    rfl
  rw [Left, ← hsame] at hleft
  split at hleft
  · next hnone =>
    rw [hnone, leavesFree]
    cases hbriefing : s.briefing with
    | none =>
      have hclaimed : ClaimsOrFinds jobId s'' := .inl (claimAnswer_of_none (hleft.trans hbriefing))
      simp [hclaimed]
    | some briefing => exact claims_iff_free (hleft.trans hbriefing) (hforeign briefing hbriefing)
  · next write rest hsome =>
    obtain ⟨briefing, hbriefing, hleft⟩ := hleft
    rw [hsome]
    cases write with
    | claim other claimedAt =>
      obtain ⟨hstatus, hat, hby⟩ := hleft
      have hother : briefing.claimedBy ≠ some jobId := by
        rw [hby]
        exact fun hsame => hnew (Option.some.inj hsame).symm
      rw [claims_of_processing hbriefing hstatus hother, hat]
      simp [leavesFree]
    | _ =>
      have hstatus : briefing.status ≠ .processing := by
        rw [hleft]
        nofun
      simp [leavesFree, claims_of_not_processing hbriefing hstatus]

def samplePending : JobCall :=
  { eventId := "a", bundle := .ok { transcripts := 1, pendingTranscriptCount := 1 } }

def sampleFailing : JobCall := { eventId := "a", generated := .error (.other "timeout") }

def sampleFailed (job : JobCall) := (handle { } job).run.eval (storeAnswer (some 1)) { }

def sampleRelayed (job : JobCall) : State := { (sampleFailed job).2 with clock := 30000 }

theorem sampleFailed_reach (job : JobCall) :
    Reach (stores (fun _ _ _ => True) (some 1)) Later (handle { } job).run { }
      (.ret (sampleFailed job).1) (sampleFailed job).2 := by
  refine reach_eval (fun command s => ?_) _ _
  have hruns : runs (fun _ _ _ => True) (.store (some 1) command) s
      (runAnswer (.store (some 1) command) s).1 (runAnswer (.store (some 1) command) s).2 :=
    runAnswer_runs (fun _ _ => true) (fun _ _ _ _ => trivial) _ s rfl
  exact hruns

theorem retry_claims_sample : ClaimsOrFinds "b" (sampleRelayed sampleFailing) := by
  have hreach := sampleFailed_reach sampleFailing
  have hfailed : (sampleFailed sampleFailing).1 = .error (.other "timeout") := rfl
  rw [hfailed] at hreach
  have hforeign : ∀ briefing, ({ } : State).briefing = some briefing →
      briefing.claimedBy ≠ some "b" := by
    intro briefing hbriefing
    cases hbriefing
  exact (retry_claims rfl hreach ⟨30000, by decide +kernel, rfl⟩ (by decide) hforeign).mpr
    (by decide +kernel)

theorem pending_retry_busy :
    ∃ error s', Reach (stores (fun _ _ _ => True) (some 1)) Later (handle { } samplePending).run { }
        (.ret (.error error)) s' ∧
      retried { } samplePending error = true ∧ Later s' { s' with clock := 30000 } ∧
      ¬ ClaimsOrFinds "b" { s' with clock := 30000 } := by
  have hreach := sampleFailed_reach samplePending
  have hfailed : (sampleFailed samplePending).1 = .error .pendingTranscript := rfl
  rw [hfailed] at hreach
  refine ⟨_, _, hreach, by decide, ⟨30000, by decide +kernel, rfl⟩, ?_⟩
  rintro (hclaimed | hfound)
  · exact absurd hclaimed (by decide +kernel)
  · exact absurd hfound (by decide +kernel)

end AiBuddy.DailyBriefing
