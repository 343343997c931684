import Mathlib.Data.List.Forall2
import AiBuddy.ScheduleExtraction.Claims

/-!
# One unfinished claim

Where no `update_one` of a claim lands on the claim of another job, the stored claim is that of the
one job that has still to finish, and no claim is taken over.
-/

namespace AiBuddy.ScheduleExtraction

open Program

inductive Stage where
  | free
  | found
  | claimed

structure Holding where
  job : String
  stage : Stage

def Holding.Knows (s : State) (holding : Holding) : Prop :=
  match holding.stage with
  | .free => True
  | .found => s.existing.isSome = true
  | .claimed => s.HeldBy holding.job

structure Claims (holdings : List Holding) (s : State) : Prop where
  nodup : (holdings.map Holding.job).Nodup
  knows : ∀ holding ∈ holdings, holding.Knows s
  unfinished : ∀ job, Unfinished s.history job → s.HeldBy job
  latest : ∀ job, s.HeldBy job →
    (s.history.find? fun entry => entry.act = .claimed).map Entry.jobId = some job
  quiet : NoLateChange s.history

section Claims

variable {holding holding' : Holding} {others holdings holdings' : List Holding} {s s' : State}
  {job other : String} {history : List Entry} {entry : Entry}

theorem State.HeldBy.unique (h : s.HeldBy job) (h' : s.HeldBy other) : job = other := by
  obtain ⟨existing, hexisting, -, hclaimed⟩ := h
  obtain ⟨existing', hexisting', -, hclaimed'⟩ := h'
  rw [hexisting] at hexisting'
  obtain rfl := Option.some.inj hexisting'
  rw [hclaimed] at hclaimed'
  exact Option.some.inj hclaimed'

theorem unfinished_cons : Unfinished (entry :: history) job ↔
    if entry.jobId = job then entry.act = .claimed else Unfinished history job := by
  unfold Unfinished
  split
  · next hsame =>
    rw [List.find?_cons_of_pos (by simp [hsame]), Option.map_some, Option.some.injEq]
  · next hne => rw [List.find?_cons_of_neg (by simp [hne])]

theorem not_takenOver
    (h : (history.find? fun entry => entry.act = .claimed).map Entry.jobId = some job) :
    ¬ TakenOver history job := by
  rintro ⟨since, claim, older, rfl, -, -, hnone, later, hlater, hact⟩
  obtain ⟨latest, hlatest⟩ : ∃ latest, since.find? (fun entry => entry.act = .claimed) =
      some latest := by
    rw [← Option.isSome_iff_exists, List.find?_isSome]
    exact ⟨later, hlater, by simp [hact]⟩
  rw [List.find?_append, hlatest, Option.some_or, Option.map_some] at h
  have hclaimed : latest.act = .claimed := by simpa using List.find?_some hlatest
  exact hnone latest (List.mem_of_find?_eq_some hlatest) hclaimed (Option.some.inj h)

theorem noLateChange_cons (h : NoLateChange history)
    (hentry : entry.act = .finished → ¬ TakenOver history entry.jobId) :
    NoLateChange (entry :: history) := by
  intro newer late older hsplit hact htaken
  cases newer with
  | nil =>
    obtain ⟨rfl, rfl⟩ := List.cons.inj hsplit
    exact absurd htaken (hentry hact)
  | cons _ newer =>
    obtain ⟨-, hrest⟩ := List.cons.inj hsplit
    exact h newer late older hrest hact htaken

theorem Claims.perm (hperm : holdings.Perm holdings') (h : Claims holdings s) :
    Claims holdings' s := by
  refine ⟨(hperm.map _).nodup_iff.mp h.nodup, ?_, h.unfinished, h.latest, h.quiet⟩
  intro holding hholding
  exact h.knows holding (hperm.mem_iff.mpr hholding)

theorem Claims.elapse (h : Claims holdings s) (hmove : Elapses s s') : Claims holdings s' := by
  obtain ⟨clock, -, rfl⟩ := hmove
  exact ⟨h.nodup, h.knows, h.unfinished, h.latest, h.quiet⟩

theorem Claims.learn (h : Claims (holding :: others) s) (hjob : holding'.job = holding.job)
    (hknows : holding'.Knows s) : Claims (holding' :: others) s := by
  refine ⟨?_, ?_, h.unfinished, h.latest, h.quiet⟩
  · rw [List.map_cons, hjob]
    exact h.nodup
  · intro other hother
    rcases List.mem_cons.mp hother with rfl | hother
    · exact hknows
    · exact h.knows other (List.mem_cons_of_mem _ hother)

theorem Claims.sole (h : Claims (holding :: others) s) :
    ∀ other ∈ others, other.job ≠ holding.job := by
  intro other hother hsame
  have hnodup := h.nodup
  rw [List.map_cons, List.nodup_cons] at hnodup
  exact hnodup.1 (hsame ▸ List.mem_map.mpr ⟨other, hother, rfl⟩)

theorem Claims.claim {doc : Extraction} (h : Claims (holding :: others) s)
    (hfree : ∀ other, s.HeldBy other → other = holding.job)
    (hstatus : doc.status = .processing) (hclaimed : doc.claimedBy = some holding.job) :
    Claims (⟨holding.job, .claimed⟩ :: others) (s.write holding.job .claimed (some doc)) := by
  have hheld : ∀ {job}, (s.write holding.job .claimed (some doc)).HeldBy job ↔
      job = holding.job := by
    intro job
    constructor
    · rintro ⟨existing, hexisting, -, hby⟩
      obtain rfl := Option.some.inj hexisting
      rw [hclaimed] at hby
      exact (Option.some.inj hby).symm
    · rintro rfl
      exact ⟨doc, rfl, hstatus, hclaimed⟩
  refine ⟨h.nodup, ?_, ?_, ?_, ?_⟩
  · intro other hother
    rcases List.mem_cons.mp hother with rfl | hother
    · exact hheld.mpr rfl
    · have hwas := h.knows other (List.mem_cons_of_mem _ hother)
      unfold Holding.Knows at hwas ⊢
      split
      · trivial
      · rfl
      · next hstage =>
        rw [hstage] at hwas
        exact absurd (hfree _ hwas) (h.sole other hother)
  · intro job hunfinished
    rw [State.write, unfinished_cons] at hunfinished
    rw [hheld]
    split at hunfinished
    · next hsame => exact hsame.symm
    · exact hfree job (h.unfinished job hunfinished)
  · intro job hjob
    obtain rfl := hheld.mp hjob
    rw [State.write, List.find?_cons_of_pos (by simp)]
    rfl
  · exact noLateChange_cons h.quiet nofun

theorem Claims.finish {finish : Finish} (h : Claims (⟨job, .claimed⟩ :: others) s) :
    Claims (⟨job, .free⟩ :: others)
      (s.write job .finished (s.existing.map (Extraction.finished finish))) := by
  have hmine : s.HeldBy job := h.knows ⟨job, .claimed⟩ List.mem_cons_self
  obtain ⟨existing, hexisting, -⟩ := id hmine
  have hheld : ∀ other, ¬ (s.write job .finished
      (s.existing.map (Extraction.finished finish))).HeldBy other := by
    rintro other ⟨doc, hdoc, hprocessing, -⟩
    rw [State.write, hexisting] at hdoc
    obtain rfl := Option.some.inj hdoc
    cases hending : finish.ending <;>
      rw [Extraction.finished, hending] at hprocessing <;> cases hprocessing
  refine ⟨h.nodup, ?_, ?_, ?_, ?_⟩
  · intro other hother
    rcases List.mem_cons.mp hother with rfl | hother
    · trivial
    · have hwas := h.knows other (List.mem_cons_of_mem _ hother)
      unfold Holding.Knows at hwas ⊢
      split
      · trivial
      · rw [State.write, hexisting]
        rfl
      · next hstage =>
        rw [hstage] at hwas
        exact absurd (hwas.unique hmine) (h.sole other hother)
  · intro other hunfinished
    rw [State.write, unfinished_cons] at hunfinished
    split at hunfinished
    · cases hunfinished
    · next hne => exact absurd ((h.unfinished other hunfinished).unique hmine).symm hne
  · intro other hother
    exact absurd hother (hheld other)
  · exact noLateChange_cons h.quiet fun _ => not_takenOver (h.latest job hmine)

abbrev Keeps {α : Type} (job : String) (post : α → Holding → Prop) (holding : Holding)
    (prog : Claiming α) : Prop :=
  Holds (under job (jobSemantics SparesClaims)) Claims post holding prog

def Of (job : String) (holding : Holding) : Prop := holding.job = job

theorem keeps_finish {finish : Finish} :
    Keeps job (fun _ => Of job) ⟨job, .claimed⟩ (issue (.finishOne finish)) := by
  refine Holds.issue fun others s reply s' h hstep => ?_
  obtain ⟨-, hanswer⟩ := hstep
  cases hanswer
  exact ⟨⟨job, .free⟩, h.finish, rfl⟩

/-- After `_claim` the job holds what it was told that it claimed. -/
def Answered (job : String) (reply : ClaimReply) (holding : Holding) : Prop :=
  match reply with
  | .claimed _ => holding = ⟨job, .claimed⟩
  | _ => Of job holding

theorem keeps_insert {doc : Extraction} (hholding : Of job holding)
    (hstatus : doc.status = .processing) (hclaimed : doc.claimedBy = some job) :
    Keeps job (Answered job) holding (do
      let inserted ← issue (.insertOne doc)
      return if inserted then .claimed doc else .busy none) := by
  subst hholding
  refine Holds.issue_bind fun others s reply s' h hstep => ?_
  obtain ⟨-, hanswer⟩ := hstep
  simp only [answer] at hanswer
  split at hanswer
  · cases hanswer
    exact ⟨holding, h, rfl⟩
  · next hnone =>
    cases hanswer
    refine ⟨⟨holding.job, .claimed⟩, h.claim ?_ hstatus hclaimed, rfl⟩
    rintro other ⟨existing, hexisting, -⟩
    rw [hexisting] at hnone
    exact absurd rfl hnone

theorem keeps_claim (hholding : Of job holding) : Keeps job (Answered job) holding (claim job) := by
  subst hholding
  refine Holds.issue_bind fun others s now s' h hstep => ?_
  obtain ⟨-, hanswer⟩ := hstep
  cases hanswer
  refine ⟨holding, h, ?_⟩
  refine Holds.issue_bind fun others s found s' h hstep => ?_
  obtain ⟨-, hanswer⟩ := hstep
  cases hanswer
  cases hexisting : s.existing with
  | none => exact ⟨holding, h, keeps_insert rfl rfl rfl⟩
  | some existing =>
    refine ⟨⟨holding.job, .found⟩, h.learn rfl ?_, ?_⟩
    · rw [Holding.Knows, hexisting]
      rfl
    dsimp only
    split
    · exact rfl
    · split
      · exact rfl
      · refine Holds.issue_bind fun others s reply s' h hstep => ?_
        obtain ⟨hspares, hanswer⟩ := hstep
        cases hanswer
        have hfound : s.existing.isSome = true :=
          h.knows ⟨holding.job, .found⟩ List.mem_cons_self
        obtain ⟨current, hcurrent⟩ := Option.isSome_iff_exists.mp hfound
        refine ⟨⟨holding.job, .claimed⟩, ?_, rfl⟩
        dsimp only
        rw [hcurrent]
        exact h.claim hspares rfl rfl

theorem keeps_attempt {finish : Extraction → Option Finish} (hholding : Of job holding) :
    Keeps job (fun _ => Of job) holding (attempt job finish) := by
  refine (keeps_claim hholding).then fun reply holding' hanswered => ?_
  cases reply with
  | claimed doc =>
    obtain rfl := hanswered
    dsimp only
    split
    · exact keeps_finish
    · exact rfl
  | exists_ existing => exact hanswered
  | busy existing => exact hanswered

theorem keeps_job {job : Job} (hholding : holding = ⟨job.id,
      if job.unfinished.isSome then .claimed else .free⟩) :
    Holds (jobSemantics SparesClaims) Claims (fun _ _ => True) holding
      (job.program.labelled job.id) := by
  have hloop : ∀ holding, Of job.id holding → Keeps job.id (fun _ => Of job.id) holding
      (forEach (attempt job.id) job.attempts) :=
    fun holding hof => Holds.forEach hof fun _ _ _ hof => keeps_attempt hof
  have hprogram : Keeps job.id (fun _ => Of job.id) holding job.program := by
    unfold Job.program
    cases hunfinished : job.unfinished with
    | none => exact hloop holding (by rw [hholding]; rfl)
    | some finish =>
      rw [hunfinished] at hholding
      subst hholding
      exact keeps_finish.then fun _ holding' hof => hloop holding' hof
  exact (hprogram.mono fun _ _ _ => trivial).labelled

theorem unfinished_storedClaim {existing : Option Extraction}
    (h : Unfinished (storedClaim existing) job) :
    ∃ doc, existing = some doc ∧ doc.status = .processing ∧ doc.claimedBy = some job := by
  unfold storedClaim at h
  split at h
  · next doc =>
    split at h
    · next jobId hstatus hclaimed =>
      rw [unfinished_cons] at h
      split at h
      · next hsame => exact ⟨doc, rfl, hstatus, hsame ▸ hclaimed⟩
      · cases h
    · cases h
  · cases h

theorem storedClaim_of_heldBy (h : s.HeldBy job) :
    (storedClaim s.existing).map Entry.jobId = [job] ∧
      ∀ entry ∈ storedClaim s.existing, entry.act = .claimed := by
  obtain ⟨doc, hdoc, hstatus, hclaimed⟩ := h
  simp [storedClaim, hdoc, hstatus, hclaimed]

def startHoldings (jobs : List Job) : List Holding :=
  jobs.map fun job => ⟨job.id, if job.unfinished.isSome then .claimed else .free⟩

theorem Started.claims {jobs : List Job} (h : Started jobs s) : Claims (startHoldings jobs) s := by
  refine ⟨?_, ?_, ?_, ?_, ?_⟩
  · rw [startHoldings, List.map_map]
    exact h.nodup
  · intro holding hholding
    obtain ⟨job, hjob, rfl⟩ := List.mem_map.mp hholding
    unfold Holding.Knows
    cases hunfinished : job.unfinished.isSome with
    | false => trivial
    | true => exact h.unfinished job hjob hunfinished
  · intro job hunfinished
    rw [h.history] at hunfinished
    exact unfinished_storedClaim hunfinished
  · intro job hheld
    obtain ⟨hjobs, hacts⟩ := storedClaim_of_heldBy hheld
    rw [h.history]
    match hstored : storedClaim s.existing with
    | [] =>
      rw [hstored] at hjobs
      cases hjobs
    | entry :: rest =>
      rw [hstored] at hjobs hacts
      rw [List.find?_cons_of_pos (by simp [hacts entry List.mem_cons_self])]
      exact congrArg some (List.cons.inj hjobs).1
  · intro newer entry older hsplit hact
    have hmem : entry ∈ storedClaim s.existing := by
      rw [← h.history, hsplit]
      exact List.mem_append_right _ List.mem_cons_self
    have hclaimed : entry.act = .claimed := by
      unfold storedClaim at hmem
      split at hmem
      · split at hmem
        · rw [List.mem_singleton.mp hmem]
        · cases hmem
      · cases hmem
    rw [hclaimed] at hact
    cases hact

end Claims

theorem job_run_claims {jobs : List Job} {start : State} {pool : Pool JobCommand Unit State}
    (hstart : Started jobs start) (hrun : JobRun SparesClaims jobs start pool) :
    pool.Held (jobSemantics SparesClaims) Claims := by
  have hpool : (jobPool jobs start).Held (jobSemantics SparesClaims) Claims := by
    refine ⟨startHoldings jobs, ?_, hstart.claims⟩
    unfold startHoldings jobPool
    rw [List.forall₂_map_left_iff, List.forall₂_map_right_iff, List.forall₂_same]
    exact fun job _ => keeps_job rfl
  exact hpool.steps (fun _ _ _ hperm h => h.perm hperm) nofun
    (fun _ _ _ h hmove => h.elapse hmove) hrun

/-- Where no `update_one` of a claim lands on the claim of another job, at most one job has an
unfinished claim, and none changes the document after its claim was taken over. -/
theorem one_unfinished_claim {jobs : List Job} {start : State}
    {pool : Pool JobCommand Unit State} (hstart : Started jobs start)
    (hrun : JobRun SparesClaims jobs start pool) :
    (∀ job other, Unfinished pool.shared.history job → Unfinished pool.shared.history other →
      job = other) ∧ NoLateChange pool.shared.history := by
  obtain ⟨holdings, -, h⟩ := job_run_claims hstart hrun
  exact ⟨fun job other hjob hother => (h.unfinished job hjob).unique (h.unfinished other hother),
    h.quiet⟩

/-! Two jobs find a conversation in RETRY_PENDING. -/

def sampleJobs : List Job :=
  [⟨"j1", none, [fun _ => some ⟨.ready, some ["events", "reminders"]⟩]⟩,
    ⟨"j2", none, [fun _ => some ⟨.retryPending, some ["events"]⟩]⟩]

def sampleStart : State := ⟨20000 * Reminders.day, some { status := .retryPending }, []⟩

def sampleJobsAfter (order : List Nat) : Pool JobCommand Unit State :=
  (jobPool sampleJobs sampleStart).turns answer order

/-- `Fresh`, as a test. -/
def fresh (s : State) : Bool :=
  s.existing.all fun existing => existing.status ≠ .processing ||
    existing.claimedAt.any fun claimedAt => claimedAt > s.clock - claimStale

/-- `SparesClaims`, as a test. -/
def sparesClaims {β : Type} (command : JobCommand β) (s : State) : Bool :=
  match command.command with
  | .claimOne .. => s.existing.all fun existing =>
    existing.status ≠ .processing || existing.claimedBy = some command.label
  | _ => true

theorem fresh_sound {s : State} (h : fresh s = true) : Fresh s := by
  intro existing hexisting hstatus
  rw [fresh, hexisting, Option.all_some, hstatus] at h
  cases hclaimed : existing.claimedAt with
  | none =>
    rw [hclaimed] at h
    cases h
  | some claimedAt =>
    rw [hclaimed] at h
    exact ⟨claimedAt, rfl, by simpa using h⟩

theorem sparesClaims_sound {β : Type} {command : JobCommand β} {s : State}
    (h : sparesClaims command s = true) : SparesClaims command s := by
  obtain ⟨label, command⟩ := command
  cases command with
  | claimOne jobId now attempts =>
    rintro other ⟨existing, hexisting, hstatus, hclaimed⟩
    have hcheck : (s.existing.all fun existing =>
        existing.status ≠ .processing || existing.claimedBy = some label) = true := h
    rw [hexisting, Option.all_some, hstatus, hclaimed] at hcheck
    simpa using hcheck
  | _ => trivial

theorem sampleJobs_started : Started sampleJobs sampleStart := by
  refine ⟨by decide, ?_, rfl⟩
  intro job hjob hunfinished
  simp only [sampleJobs, List.mem_cons, List.not_mem_nil, or_false] at hjob
  rcases hjob with rfl | rfl <;> cases hunfinished

theorem sampleJobs_run {allowed : Condition} {check : ∀ {β : Type}, JobCommand β → State → Bool}
    (hallowed : ∀ {β : Type} (command : JobCommand β) s, check command s = true → allowed command s)
    {order : List Nat} (h : (jobPool sampleJobs sampleStart).turnsPass answer check order = true) :
    JobRun allowed sampleJobs sampleStart (sampleJobsAfter order) := by
  apply Pool.turns_run check _ order _ h
  exact fun command s hcheck => ⟨hallowed command s hcheck, rfl⟩

theorem one_unfinished_claim_sample :
    (sampleJobsAfter [0, 0, 1, 0, 1, 0]).shared.history.map
        (fun entry => (entry.jobId, entry.act)) = [("j1", .finished), ("j1", .claimed)] ∧
      (∀ job other, Unfinished (sampleJobsAfter [0, 0, 1, 0, 1, 0]).shared.history job →
        Unfinished (sampleJobsAfter [0, 0, 1, 0, 1, 0]).shared.history other → job = other) ∧
      NoLateChange (sampleJobsAfter [0, 0, 1, 0, 1, 0]).shared.history :=
  ⟨by decide +kernel, one_unfinished_claim sampleJobs_started
    (sampleJobs_run (fun _ _ h => sparesClaims_sound h) (by decide +kernel))⟩

/-- Both jobs have found RETRY_PENDING before either claims. Both claims land, and the first job
makes the document READY while the second one is at work. -/
theorem two_unfinished_claims :
    Started sampleJobs sampleStart ∧
    JobRun (fun _ s => Fresh s) sampleJobs sampleStart (sampleJobsAfter [0, 0, 1, 1, 0, 1]) ∧
    Unfinished (sampleJobsAfter [0, 0, 1, 1, 0, 1]).shared.history "j1" ∧
    Unfinished (sampleJobsAfter [0, 0, 1, 1, 0, 1]).shared.history "j2" ∧
    JobRun (fun _ s => Fresh s) sampleJobs sampleStart (sampleJobsAfter [0, 0, 1, 1, 0, 1, 0]) ∧
    (sampleJobsAfter [0, 0, 1, 1, 0, 1, 0]).shared.existing.map Extraction.status = some .ready ∧
    ¬ NoLateChange (sampleJobsAfter [0, 0, 1, 1, 0, 1, 0]).shared.history := by
  refine ⟨sampleJobs_started,
    sampleJobs_run (fun _ _ h => fresh_sound h) (by decide +kernel),
    by decide +kernel, by decide +kernel,
    sampleJobs_run (fun _ _ h => fresh_sound h) (by decide +kernel),
    by decide +kernel, fun hquiet => ?_⟩
  obtain ⟨finish, second, first, hhistory, hfinish, hsecond, hfirst⟩ :
      ∃ finish second first, (sampleJobsAfter [0, 0, 1, 1, 0, 1, 0]).shared.history =
        [finish, second, first] ∧
        (finish.jobId = "j1" ∧ finish.act = .finished ∧
          finish.before.map Extraction.status ≠ finish.after.map Extraction.status) ∧
        (second.jobId = "j2" ∧ second.act = .claimed) ∧
        (first.jobId = "j1" ∧ first.act = .claimed) :=
    ⟨_, _, _, rfl, by decide +kernel, by decide +kernel, by decide +kernel⟩
  refine hquiet [] finish [second, first] hhistory hfinish.2.1 ?_ (.inl hfinish.2.2)
  refine ⟨[second], first, [], rfl, hfirst.1.trans hfinish.1.symm, hfirst.2, ?_, second,
    List.mem_singleton_self _, hsecond.2⟩
  intro entry hentry _
  rw [List.mem_singleton.mp hentry, hsecond.1, hfinish.1]
  decide

end AiBuddy.ScheduleExtraction
