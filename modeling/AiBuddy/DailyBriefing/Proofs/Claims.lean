import AiBuddy.DailyBriefing.Jobs

/-!
# Claims of daily briefings

As long as no call stores an outcome over a claim, or a READY, that is not its own, at most one job
holds a claim that is not stale, and the READY of the latest claim stays.
-/

namespace AiBuddy.DailyBriefing

open Program Queue.MongoFence Conversation.Session

def UnderClaim (claim : StoredClaim) (briefing : Briefing) : Prop :=
  briefing.status = .ready ∨
    (briefing.status = .processing ∧ briefing.claimedAt = some claim.claimedAt ∧
      briefing.claimedBy = some claim.jobId)

def FencedBy (token : Option Int) (briefing : Briefing) : Prop :=
  ∀ number, token = some number → ∃ fence, briefing.processingFence = some fence ∧ number ≤ fence

structure Claimed (s : State) : Prop where
  stale : ∀ claim ∈ s.held, s.latest ≠ some claim → claim.fresh s.clock = false
  taken : ∀ claim ∈ s.held, s.latest = some claim →
    ∃ briefing, s.briefing = some briefing ∧ UnderClaim claim briefing
  saved : ∀ saver, s.saved = some saver →
    ∃ briefing, s.briefing = some briefing ∧ briefing.status = .ready ∧ FencedBy saver.2 briefing
  undone : s.undone = false

theorem Unclaimed.claimed {s : State} (h : Unclaimed s) : Claimed s where
  stale := by
    rw [h.held]
    nofun
  taken := by
    rw [h.held]
    nofun
  saved := by
    rw [h.saved]
    nofun
  undone := h.undone

theorem StoredClaim.stale_mono {claim : StoredClaim} {clock later : Int}
    (h : claim.fresh clock = false) (hle : clock ≤ later) : claim.fresh later = false := by
  simp only [StoredClaim.fresh, decide_eq_false_iff_not, Int.not_lt] at h ⊢
  omega

theorem Claimed.later {s s' : State} (h : Claimed s) (hlater : Later s s') : Claimed s' := by
  obtain ⟨clock, hle, rfl⟩ := hlater
  exact ⟨fun claim hmem hlatest => StoredClaim.stale_mono (h.stale claim hmem hlatest) hle, h.taken,
    h.saved, h.undone⟩

theorem Claimed.atMostOne {s : State} (h : Claimed s) : s.AtMostOne := by
  have hlatest : ∀ claim ∈ s.held, claim.fresh s.clock = true → s.latest = some claim := by
    intro claim hmem hfresh
    by_contra hother
    rw [h.stale claim hmem hother] at hfresh
    cases hfresh
  intro claim hmem other hother hfresh hfresh'
  have hsame : some claim = some other :=
    (hlatest claim hmem hfresh).symm.trans (hlatest other hother hfresh')
  rw [Option.some.inj hsame]

section Writes

variable {issuer : Issuer} {write : Write} {token : Option Int} {s : State}
  {briefing new : Briefing} {jobId : String} {now : Int}

theorem owns_eq_false {claim : StoredClaim} (hlatest : s.latest = some claim)
    (h : issuer ≠ some claim.number) : s.owns issuer = false := by
  simp [State.owns, hlatest, h]

theorem Claimed.ready_of_savedByLatest (h : Claimed s) (hsaved : s.savedByLatest = true) :
    ∃ briefing, s.briefing = some briefing ∧ briefing.status = .ready := by
  cases hlatest : s.latest with
  | none => simp [State.savedByLatest, hlatest] at hsaved
  | some claim =>
    cases hsaver : s.saved with
    | none => simp [State.savedByLatest, hlatest, hsaver] at hsaved
    | some saver =>
      obtain ⟨briefing, hbriefing, hready, -⟩ := h.saved saver hsaver
      exact ⟨briefing, hbriefing, hready⟩

theorem Claimed.stopped (h : Claimed s) (hbriefing : s.briefing = some briefing)
    (holder : s.olderThanSaved token = true) :
    fenceAllows token briefing.processingFence = false := by
  unfold State.olderThanSaved at holder
  split at holder
  · next number saver saved hsaved =>
    obtain ⟨stored, hstored, -, hfence⟩ := h.saved _ hsaved
    obtain rfl := Option.some.inj (hbriefing.symm.trans hstored)
    obtain ⟨fence, hfence, hle⟩ := hfence saved rfl
    have hlt : number < saved := of_decide_eq_true holder
    simp only [fenceAllows, hfence, decide_eq_false_iff_not, Int.not_le]
    omega
  · cases holder

def OutcomeFinds (write : Write) (briefing : Briefing) : Prop :=
  match write with
  | .skip .. | .fail .. => briefing.status ≠ .ready ∧ briefing.status ≠ .processing
  | .ready .. => briefing.status ≠ .ready
  | _ => True

section

variable (h : Claimed s)

include h

theorem Claimed.outcomeFinds (hbriefing : s.briefing = some briefing)
    (hallows : fenceAllows token briefing.processingFence = true)
    (hspares : sparesWrite issuer write token s = true) (hother : s.owns issuer = false) :
    OutcomeFinds write briefing := by
  have hready : s.olderThanSaved token = false := by
    by_contra holder
    rw [h.stopped hbriefing (by simpa using holder)] at hallows
    cases hallows
  rw [sparesWrite, hother, hbriefing, Bool.false_or, Option.all_some] at hspares
  cases write with
  | skip =>
    simp only [Bool.and_eq_true, decide_eq_true_eq] at hspares
    exact ⟨hspares.2, hspares.1⟩
  | fail =>
    simp only [hallows, hready, Bool.not_true, Bool.or_false, Bool.and_eq_true,
      decide_eq_true_eq] at hspares
    exact ⟨hspares.2, hspares.1⟩
  | ready =>
    simp only [hready, Bool.or_false, decide_eq_true_eq] at hspares
    exact hspares
  | reserve => trivial
  | claim => trivial

theorem Claimed.not_ready (hbriefing : s.briefing = some briefing)
    (haccepts : write.accepts briefing = true)
    (hallows : fenceAllows token briefing.processingFence = true)
    (hspares : sparesWrite issuer write token s = true) (hother : s.owns issuer = false) :
    briefing.status ≠ .ready := by
  have hfinds := h.outcomeFinds hbriefing hallows hspares hother
  intro hready
  cases write with
  | reserve => simp [Write.accepts, hready] at haccepts
  | claim => simp [Write.accepts, hready] at haccepts
  | skip => exact hfinds.1 hready
  | fail => exact hfinds.1 hready
  | ready => exact hfinds hready

theorem Claimed.wrote_undone
    (hnew : s.owns issuer = false → ∀ briefing, s.briefing = some briefing →
      briefing.status ≠ .ready) :
    (s.wrote issuer write token new).undone = false := by
  have hspared : (s.savedByLatest && !s.owns issuer) = false := by
    rw [Bool.and_eq_false_iff, Bool.not_eq_false']
    by_cases hsaved : s.savedByLatest = true
    · refine .inr (Bool.of_not_eq_false fun hother => ?_)
      obtain ⟨briefing, hbriefing, hready⟩ := h.ready_of_savedByLatest hsaved
      exact hnew hother briefing hbriefing hready
    · exact .inl (by simpa using hsaved)
  show (s.undone || (s.savedByLatest && !s.owns issuer && _)) = false
  rw [h.undone, hspared, Bool.false_and, Bool.or_false]

theorem Claimed.under (hbriefing : s.briefing = some briefing) {claim : StoredClaim}
    (hmem : claim ∈ s.held) (hlatest : s.latest = some claim) :
    UnderClaim claim briefing := by
  obtain ⟨stored, hstored, hunder⟩ := h.taken claim hmem hlatest
  obtain rfl := Option.some.inj (hbriefing.symm.trans hstored)
  exact hunder

theorem Claimed.not_gone (hbriefing : s.briefing = some briefing) {claim : StoredClaim}
    (hmem : claim ∈ s.held) (hlatest : s.latest = some claim)
    (hgone : briefing.status ≠ .ready ∧ briefing.status ≠ .processing) : False := by
  rcases h.under hbriefing hmem hlatest with hready | ⟨hprocessing, -⟩
  · exact hgone.1 hready
  · exact hgone.2 hprocessing

theorem Claimed.claim (hnow : now ≤ s.clock)
    (hstale : ∀ claim ∈ s.held, s.latest = some claim → claim.jobId ≠ jobId →
      claim.fresh now = false)
    (hnew : UnderClaim ⟨issuer.getD 0, jobId, now⟩ new)
    (hready : ∀ briefing, s.briefing = some briefing → briefing.status ≠ .ready) :
    Claimed (s.wrote issuer (.claim jobId now) token new) where
  stale claim hmem hlatest := by
    rcases List.mem_cons.mp hmem with rfl | hother
    · exact absurd rfl hlatest
    · obtain ⟨hheld, hjob⟩ := List.mem_filter.mp hother
      by_cases hbefore : s.latest = some claim
      · exact StoredClaim.stale_mono (hstale claim hheld hbefore (of_decide_eq_true hjob)) hnow
      · exact h.stale claim hheld hbefore
  taken claim hmem hlatest := by
    obtain rfl := Option.some.inj hlatest
    exact ⟨new, rfl, hnew⟩
  saved := nofun
  undone := h.wrote_undone fun _ => hready

theorem Claimed.wrote_over (hbriefing : s.briefing = some briefing)
    (haccepts : write.accepts briefing = true)
    (hallows : fenceAllows token briefing.processingFence = true)
    (hspares : sparesWrite issuer write token s = true)
    (hnow : ∀ jobId now, write = .claim jobId now → now ≤ s.clock) :
    Claimed (s.wrote issuer write token (write.written token briefing)) := by
  have hundone : (s.wrote issuer write token (write.written token briefing)).undone = false := by
    refine h.wrote_undone fun hother stored hstored => ?_
    obtain rfl := Option.some.inj (hbriefing.symm.trans hstored)
    exact h.not_ready hbriefing haccepts hallows hspares hother
  have hfinds : ∀ claim, s.latest = some claim → issuer ≠ some claim.number →
      OutcomeFinds write briefing := fun claim hlatest hissuer =>
    h.outcomeFinds hbriefing hallows hspares (owns_eq_false hlatest hissuer)
  cases write with
  | reserve =>
    have hfailed : briefing.status = .failed := of_decide_eq_true haccepts
    refine ⟨h.stale, fun claim hmem hlatest => ?_, nofun, hundone⟩
    rcases h.under hbriefing hmem hlatest with hready | ⟨hprocessing, -⟩
    · rw [hfailed] at hready
      cases hready
    · rw [hfailed] at hprocessing
      cases hprocessing
  | claim jobId now =>
    have hnotReady : briefing.status ≠ .ready := by
      intro hready
      simp [Write.accepts, hready] at haccepts
    refine h.claim (hnow jobId now rfl) ?_ (.inr ⟨rfl, rfl, rfl⟩) fun stored hstored => ?_
    · intro claim hmem hlatest hjob
      rcases h.under hbriefing hmem hlatest with hready | ⟨hprocessing, hat, hby⟩
      · exact absurd hready hnotReady
      · have hold : claim.claimedAt ≤ now - claimStale := by
          simpa [Write.accepts, hprocessing, hat, hby, hjob] using haccepts
        simpa [StoredClaim.fresh] using hold
    · obtain rfl := Option.some.inj (hbriefing.symm.trans hstored)
      exact hnotReady
  | skip reason stats =>
    refine ⟨fun claim hmem => h.stale claim (List.mem_of_mem_filter hmem), ?_, nofun, hundone⟩
    intro claim hmem hlatest
    obtain ⟨hheld, hissuer⟩ := List.mem_filter.mp hmem
    exact (h.not_gone hbriefing hheld hlatest
      (hfinds claim hlatest (of_decide_eq_true hissuer))).elim
  | fail error =>
    refine ⟨fun claim hmem => h.stale claim (List.mem_of_mem_filter hmem), ?_, nofun, hundone⟩
    intro claim hmem hlatest
    obtain ⟨hheld, hissuer⟩ := List.mem_filter.mp hmem
    exact (h.not_gone hbriefing hheld hlatest
      (hfinds claim hlatest (of_decide_eq_true hissuer))).elim
  | ready synthesis stats =>
    refine ⟨fun claim hmem => h.stale claim (List.mem_of_mem_filter hmem), ?_, ?_, hundone⟩
    · intro claim hmem hlatest
      exact ⟨_, rfl, .inl rfl⟩
    · intro saver hsaver
      obtain ⟨number, -, rfl⟩ := Option.map_eq_some_iff.mp hsaver
      refine ⟨_, rfl, rfl, fun value hvalue => ⟨value, ?_, Int.le_refl _⟩⟩
      subst hvalue
      rfl

theorem Claimed.wrote_new (hbriefing : s.briefing = none)
    (hwrite : write = .reserve ∨ ∃ jobId now, write = .claim jobId now ∧ now ≤ s.clock) :
    Claimed (s.wrote issuer write token write.seed) := by
  have hstored : ∀ briefing, s.briefing = some briefing → False := by
    intro briefing hsome
    rw [hbriefing] at hsome
    cases hsome
  have hnone : ∀ claim ∈ s.held, s.latest = some claim → False := by
    intro claim hmem hlatest
    obtain ⟨briefing, hsome, -⟩ := h.taken claim hmem hlatest
    exact hstored briefing hsome
  have hready : ∀ briefing, s.briefing = some briefing → briefing.status ≠ .ready :=
    fun briefing hsome => (hstored briefing hsome).elim
  rcases hwrite with rfl | ⟨jobId, now, rfl, hnow⟩
  · exact ⟨h.stale, fun claim hmem hlatest => (hnone claim hmem hlatest).elim, nofun,
      h.wrote_undone fun _ => hready⟩
  · exact h.claim hnow (fun claim hmem hlatest => (hnone claim hmem hlatest).elim)
      (.inr ⟨rfl, rfl, rfl⟩) hready

end

end Writes

structure Memory where
  time : Option Int := none
  stored : Bool := false
  stopped : Option Int := none

structure Memory.Holds (memory : Memory) (s : State) : Prop where
  time : ∀ now, memory.time = some now → now ≤ s.clock
  stored : memory.stored = true → s.briefing.isSome = true
  stopped : ∀ token, memory.stopped = some token →
    ∃ briefing fence, s.briefing = some briefing ∧ briefing.processingFence = some fence ∧
      token < fence

def Issued (memory : Memory) {α : Type} (command : Command α) : Prop :=
  match command with
  | .find => True
  | .insert write => write = .reserve ∨ ∃ jobId now, write = .claim jobId now ∧
    memory.time = some now
  | .update write _ => ∀ jobId now, write = .claim jobId now → memory.time = some now
  | .upsert write token =>
    (∃ synthesis stats, write = .ready synthesis stats) ∧ token = none ∧ memory.stored = true

structure Grows (s s' : State) : Prop where
  clock : s'.clock = s.clock
  stored : s.briefing.isSome = true → s'.briefing.isSome = true
  fence : ∀ briefing fence, s.briefing = some briefing → briefing.processingFence = some fence →
    ∃ briefing' fence', s'.briefing = some briefing' ∧ briefing'.processingFence = some fence' ∧
      fence ≤ fence'

theorem Grows.refl (s : State) : Grows s s :=
  ⟨rfl, id, fun briefing fence hbriefing hfence =>
    ⟨briefing, fence, hbriefing, hfence, Int.le_refl _⟩⟩

theorem Memory.Holds.grows {memory : Memory} {s s' : State} (h : memory.Holds s)
    (hgrows : Grows s s') : memory.Holds s' where
  time now hnow := by
    rw [hgrows.clock]
    exact h.time now hnow
  stored hstored := hgrows.stored (h.stored hstored)
  stopped token htoken := by
    obtain ⟨briefing, fence, hbriefing, hfence, hlt⟩ := h.stopped token htoken
    obtain ⟨briefing', fence', hbriefing', hfence', hle⟩ :=
      hgrows.fence briefing fence hbriefing hfence
    exact ⟨briefing', fence', hbriefing', hfence', Int.lt_of_lt_of_le hlt hle⟩

theorem Memory.Holds.later {memory : Memory} {s s' : State} (h : memory.Holds s)
    (hlater : Later s s') : memory.Holds s' := by
  obtain ⟨clock, hle, rfl⟩ := hlater
  exact ⟨fun now hnow => Int.le_trans (h.time now hnow) hle, h.stored, h.stopped⟩

section Commands

variable {α : Type} {issuer : Issuer} {command : Command α} {memory : Memory} {s : State}

inductive Outcome (issuer : Issuer) (command : Command α) (s : State) : State → Prop where
  | nothing : command.result s.briefing = none → Outcome issuer command s s
  | new {write : Write} {token : Option Int} : s.briefing = none →
      (write = .reserve ∨ ∃ jobId now, write = .claim jobId now ∧ now ≤ s.clock) →
      Outcome issuer command s (s.wrote issuer write token write.seed)
  | overwritten {write : Write} {token : Option Int} {briefing : Briefing} :
      command.write? = some (write, token) → s.briefing = some briefing →
      write.accepts briefing = true → fenceAllows token briefing.processingFence = true →
      (∀ jobId now, write = .claim jobId now → now ≤ s.clock) →
      Outcome issuer command s (s.wrote issuer write token (write.written token briefing))

theorem State.perform_of_result {write : Write} {token : Option Int} {briefing : Briefing}
    (hwrite : command.write? = some (write, token))
    (hresult : command.result s.briefing = some briefing) :
    s.perform issuer command = s.wrote issuer write token briefing := by
  rw [State.perform, hwrite, hresult]

theorem State.perform_of_none (hresult : command.result s.briefing = none) :
    s.perform issuer command = s := by
  rw [State.perform, hresult]
  split
  · next hsome => cases hsome
  · rfl

theorem outcome_perform (hissued : Issued memory command) (hmemory : memory.Holds s) :
    Outcome issuer command s (s.perform issuer command) := by
  cases hresult : command.result s.briefing with
  | none =>
    rw [State.perform_of_none hresult]
    exact .nothing hresult
  | some new =>
    cases command with
    | find => cases hresult
    | insert write =>
      cases hbriefing : s.briefing with
      | some briefing =>
        rw [hbriefing] at hresult
        cases hresult
      | none =>
        rw [hbriefing] at hresult
        obtain rfl : write.seed = new := Option.some.inj hresult
        rw [State.perform_of_result rfl (hbriefing ▸ hresult)]
        refine .new hbriefing (hissued.imp_right ?_)
        rintro ⟨jobId, now, rfl, htime⟩
        exact ⟨jobId, now, rfl, hmemory.time now htime⟩
    | update write token =>
      cases hbriefing : s.briefing with
      | none =>
        rw [hbriefing] at hresult
        cases hresult
      | some briefing =>
        have hwritten := hresult
        rw [hbriefing, Command.result] at hwritten
        split at hwritten
        · next hmatches =>
          obtain ⟨haccepts, hallows⟩ := Bool.and_eq_true_iff.mp hmatches
          obtain rfl := Option.some.inj hwritten
          rw [State.perform_of_result rfl hresult]
          exact .overwritten rfl hbriefing haccepts hallows fun jobId now hclaim =>
            hmemory.time now (hissued jobId now hclaim)
        · cases hwritten
    | upsert write token =>
      obtain ⟨⟨synthesis, stats, rfl⟩, rfl, hstored⟩ := hissued
      obtain ⟨briefing, hbriefing⟩ := Option.isSome_iff_exists.mp (hmemory.stored hstored)
      have hwritten := hresult
      rw [hbriefing, Command.result, Option.getD_some] at hwritten
      obtain rfl := Option.some.inj hwritten
      rw [State.perform_of_result rfl hresult]
      exact .overwritten rfl hbriefing rfl rfl nofun

theorem Outcome.claimed {s' : State} (h : Outcome issuer command s s')
    (hspares : sparesOthers issuer command s = true) (hclaimed : Claimed s) : Claimed s' := by
  cases h with
  | nothing => exact hclaimed
  | new hbriefing hkind => exact hclaimed.wrote_new hbriefing hkind
  | overwritten hwrite hbriefing haccepts hallows hnow =>
    rw [sparesOthers, hwrite] at hspares
    exact hclaimed.wrote_over hbriefing haccepts hallows hspares hnow

theorem wrote_clock {write : Write} {token : Option Int} {briefing : Briefing} :
    (s.wrote issuer write token briefing).clock = s.clock := by cases write <;> rfl

theorem Outcome.grows {s' : State} (h : Outcome issuer command s s') : Grows s s' := by
  cases h with
  | nothing => exact .refl s
  | new hbriefing =>
    refine ⟨wrote_clock, fun _ => rfl, fun briefing fence hsome => ?_⟩
    rw [hbriefing] at hsome
    cases hsome
  | @overwritten write token briefing _ hbriefing _ hallows =>
    refine ⟨wrote_clock, fun _ => rfl, fun stored fence hsome hfence => ?_⟩
    obtain rfl := Option.some.inj (hbriefing.symm.trans hsome)
    cases token with
    | none => exact ⟨_, fence, rfl, hfence, Int.le_refl _⟩
    | some number =>
      rw [hfence] at hallows
      exact ⟨_, number, rfl, rfl, of_decide_eq_true hallows⟩

end Commands

def Kept (memories : List Memory) (s : State) : Prop :=
  Claimed s ∧ ∀ memory ∈ memories, memory.Holds s

abbrev sparing : StoreCondition := fun issuer command s => sparesOthers issuer command s = true

variable {holding : Holding}

variable {job : JobCall}

section Calls

variable {issuer : Issuer} {memory : Memory} {others : List Memory} {s s' : State} {α : Type}

theorem Kept.asked {command : Command α} {reply : Except Mongo.Error α}
    (h : Kept (memory :: others) s) (hissued : Issued memory command)
    (hstep : stores sparing issuer (.mongo command) s reply s') :
    Kept (memory :: others) s' ∧ (s' = s ∨ Outcome issuer command s s') := by
  obtain ⟨hspares, hanswers⟩ := hstep
  have hperform : Outcome issuer command s (s.perform issuer command) :=
    outcome_perform hissued (h.2 memory List.mem_cons_self)
  rcases hanswers.state with rfl | rfl
  · exact ⟨h, .inl rfl⟩
  · exact ⟨⟨hperform.claimed hspares h.1, fun memory hmem =>
      (h.2 memory hmem).grows hperform.grows⟩,
      .inr hperform⟩

theorem Kept.remember {memory' : Memory} (h : Kept (memory :: others) s)
    (hholds : memory'.Holds s) :
    Kept (memory' :: others) s :=
  ⟨h.1, List.forall_mem_cons.mpr ⟨hholds, fun other hmem =>
    h.2 other (List.mem_cons_of_mem _ hmem)⟩⟩

abbrev Calling (issuer : Issuer) {α : Type} (post : α → Memory → Prop) (memory : Memory)
    (prog : Program StoreCommand α) : Prop := Program.Holds (stores sparing issuer) Kept post memory
      prog

theorem calling_asked {command : Command α} {post : Except BriefingError α → Memory → Prop}
    (hissued : Issued memory command)
    (hpost : ∀ reply : Except Mongo.Error α, post (reply.mapError (.write ∘ .mongo)) memory) :
    Calling issuer post memory (asked command).run := by
  refine Holds.issue_bind fun others s reply s' hkept hstep => ?_
  exact ⟨memory, (hkept.asked hissued hstep).1, hpost reply⟩

theorem calling_utcNow {post : Except BriefingError Int → Memory → Prop}
    (hpost : ∀ now, post (.ok now) { memory with time := some now }) :
    Calling issuer post memory utcNow.run := by
  refine Holds.issue_bind ?_
  rintro others s now s' hkept ⟨rfl, rfl⟩
  have hmemory := hkept.2 memory List.mem_cons_self
  refine ⟨{ memory with time := some s'.clock },
    hkept.remember ⟨?_, hmemory.stored, hmemory.stopped⟩,
    hpost _⟩
  intro now hnow
  obtain rfl := Option.some.inj hnow
  exact Int.le_refl _

theorem stored_of_result {command : Command α} {reply : α} {write : Write} {token : Option Int}
    (hstep : stores sparing issuer (.mongo command) s (.ok reply) s')
    (hwrite : command.write? = some (write, token))
    (hresult : command.reply s.briefing = .ok reply → (command.result s.briefing).isSome = true) :
    s'.briefing.isSome = true := by
  have hrun := hstep.2.of_ok
  obtain ⟨briefing, hbriefing⟩ := Option.isSome_iff_exists.mp (hresult (congrArg Prod.fst hrun))
  have hstate : s.perform issuer command = s' := congrArg Prod.snd hrun
  rw [State.perform_of_result hwrite hbriefing] at hstate
  rw [← hstate]
  rfl

def claimPost : Except BriefingError ClaimState → Memory → Prop
  | .ok .claimed, memory => memory.stored = true
  | _, _ => True

def updatePost {β : Type} : Except BriefingError (Option β) → Memory → Prop
  | .ok (some _), memory => memory.stored = true
  | _, _ => True

theorem calling_claimUpdate {jobId : String} {now : Int} (htime : memory.time = some now) :
    Calling issuer claimPost memory (claimUpdate jobId now).run := by
  have hissued : Issued memory (.update (.claim jobId now) none) := by
    intro job time hclaim
    cases hclaim
    exact htime
  refine Holds.raising_then updatePost ?_ ?_ fun _ _ _ => trivial
  · refine Holds.issue_bind fun others s reply s' hkept hstep => ?_
    have hkept' := (hkept.asked hissued hstep).1
    have hmemory := hkept'.2 memory List.mem_cons_self
    rcases reply with error | (_ | briefing)
    · exact ⟨memory, hkept', trivial⟩
    · exact ⟨memory, hkept', trivial⟩
    · refine ⟨{ memory with stored := true },
        hkept'.remember ⟨hmemory.time, fun _ => ?_, hmemory.stopped⟩, rfl⟩
      refine stored_of_result hstep rfl fun hreply => ?_
      have hresult : (Command.update (.claim jobId now) none).result s.briefing = some briefing :=
        Except.ok.inj hreply
      rw [hresult]
      rfl
  · rintro (_ | briefing) memory hmemory
    · refine Holds.raising_then (fun _ _ => True) (calling_asked trivial fun _ => trivial) ?_
        fun _ _ _ => trivial
      exact fun _ _ _ => trivial
    · exact hmemory

theorem calling_insert {jobId : String} {now : Int} (htime : memory.time = some now) :
    Calling issuer (fun outcome memory => memory.time = some now ∧
      (outcome = .ok () → memory.stored = true)) memory
      (asked (.insert (.claim jobId now))).run := by
  refine Holds.issue_bind fun others s reply s' hkept hstep => ?_
  have hissued : Issued memory (.insert (.claim jobId now)) := Or.inr ⟨jobId, now, rfl, htime⟩
  have hkept' := (hkept.asked hissued hstep).1
  have hmemory := hkept'.2 memory List.mem_cons_self
  rcases reply with error | ⟨⟩
  · exact ⟨memory, hkept', htime, nofun⟩
  · refine ⟨{ memory with stored := true },
      hkept'.remember ⟨hmemory.time, fun _ => ?_, hmemory.stopped⟩, htime, fun _ => rfl⟩
    refine stored_of_result hstep rfl fun hreply => ?_
    cases hbriefing : s.briefing with
    | none => rfl
    | some briefing =>
      rw [hbriefing] at hreply
      cases hreply

theorem calling_claim {jobId : String} : Calling issuer claimPost memory (claim jobId).run := by
  refine Holds.raising_then (fun _ _ => True) (calling_asked trivial fun _ => trivial) ?_
    fun _ _ _ => trivial
  intro existing memory _
  split
  · trivial
  · refine Holds.raising_then (fun outcome memory => ∀ now, outcome = .ok now →
      memory.time = some now)
      (calling_utcNow fun now other hother => by rw [Except.ok.inj hother]) ?_ fun _ _ _ => trivial
    intro now memory htime
    replace htime := htime now rfl
    split
    · trivial
    · split
      · exact calling_claimUpdate htime
      · refine Holds.attempt_then (calling_insert htime) ?_
        rintro (error | ⟨⟩) memory ⟨htime, hstored⟩
        · dsimp only
          split
          · refine Holds.raising_then (fun _ memory => memory.time = some now)
              (calling_asked trivial fun _ => htime) ?_ fun _ _ _ => trivial
            intro existing memory htime
            split
            · trivial
            · exact calling_claimUpdate htime
          · trivial
        · exact hstored rfl

theorem calling_rejectIfNewer {token : Int} {post : Except BriefingError Unit → Memory → Prop}
    (hstopped : memory.stopped = some token) (hpost : ∀ error, post (.error error) memory) :
    Calling issuer post memory (rejectIfNewer holding token).run := by
  refine Holds.raising_then (fun outcome other => other = memory ∧
    ∀ existing, outcome = .ok existing →
    (existing.isSome && (existing.bind Briefing.processingFence).getD 0 > token) = true) ?_ ?_ ?_
  · refine Holds.issue_bind fun others s reply s' hkept hstep => ?_
    have hissued : Issued memory .find := trivial
    refine ⟨memory, (hkept.asked hissued hstep).1, rfl, fun existing hreply => ?_⟩
    rcases reply with error | found
    · cases hreply
    · obtain rfl : found = existing := Except.ok.inj hreply
      obtain ⟨briefing, fence, hbriefing, hfence, hlt⟩ :=
        (hkept.2 memory List.mem_cons_self).stopped token hstopped
      obtain rfl : s.briefing = found := Except.ok.inj (congrArg Prod.fst hstep.2.of_ok)
      simpa [hbriefing, hfence] using hlt
  · rintro existing other ⟨rfl, hnewer⟩
    rw [if_pos (hnewer existing rfl)]
    exact hpost _
  · rintro error other ⟨rfl, -⟩
    exact hpost error

def keepsStored {β : Type} (_ : Except BriefingError β) (memory : Memory) : Prop :=
  memory.stored = true

theorem calling_fencedWrite {write : Write} {upsert : Bool} (hstored : memory.stored = true)
    (houtcome : ∀ briefing, write.accepts briefing = true)
    (hclaim : ∀ jobId now, write ≠ .claim jobId now)
    (hready : upsert = true → ∃ synthesis stats, write = .ready synthesis stats) :
    Calling issuer keepsStored memory (fencedWrite holding write upsert).run := by
  have hissued : ∀ memory token, Issued memory (.update write token) :=
    fun _ _ jobId now hwrite => absurd hwrite (hclaim jobId now)
  unfold fencedWrite
  split
  · exact hstored
  · split
    · next hupsert =>
      exact calling_asked ⟨hready hupsert, rfl, hstored⟩ fun _ => hstored
    · refine Holds.raising_then keepsStored (calling_asked (hissued _ _) fun _ => hstored) ?_
        fun _ _ hkept => hkept
      exact fun _ _ hkept => hkept
  · next token _ =>
    refine Holds.raising_then (fun outcome other => other.stored = true ∧
      (outcome = .ok none → other.stopped = some token)) ?_ ?_ fun _ _ hkept => hkept.1
    · refine Holds.issue_bind fun others s reply s' hkept hstep => ?_
      have hkept' := (hkept.asked (hissued memory _) hstep).1
      have hmemory := hkept'.2 memory List.mem_cons_self
      rcases reply with error | (_ | found)
      · exact ⟨memory, hkept', hstored, nofun⟩
      · refine ⟨{ memory with stopped := some token },
          hkept'.remember ⟨hmemory.time, hmemory.stored, ?_⟩, hstored, fun _ => rfl⟩
        rintro number hnumber
        obtain rfl := Option.some.inj hnumber
        have hrun := hstep.2.of_ok
        obtain ⟨briefing, hbriefing⟩ := Option.isSome_iff_exists.mp
          ((hkept.2 memory List.mem_cons_self).stored hstored)
        have hresult : (Command.update write (some token)).result s.briefing = none :=
          Except.ok.inj (congrArg Prod.fst hrun)
        have hsame : s = s' := by
          have hstate : s.perform issuer (.update write (some token)) = s' := congrArg Prod.snd hrun
          rwa [State.perform_of_none hresult] at hstate
        rw [hbriefing, Command.result, houtcome, Bool.true_and] at hresult
        split at hresult
        · cases hresult
        · next hfence =>
          cases hstoredFence : briefing.processingFence with
          | none => simp [fenceAllows, hstoredFence] at hfence
          | some fence =>
            refine ⟨briefing, fence, hsame ▸ hbriefing, hstoredFence, ?_⟩
            simpa [fenceAllows, hstoredFence] using hfence
      · exact ⟨memory, hkept', hstored, nofun⟩
    · rintro (_ | found) memory ⟨hkept, hstopped⟩
      · refine Holds.raising_then (fun outcome other => keepsStored outcome other ∧
          ∃ error, outcome = .error error)
          (calling_rejectIfNewer (hstopped rfl) fun error => ⟨hkept, error, rfl⟩) ?_
          fun _ _ hpost => hpost.1
        rintro value memory ⟨-, error, herror⟩
        cases herror
      · exact hkept

theorem calling_requireActiveLease {post : Except BriefingError Unit → Memory → Prop}
    (hpost : ∀ outcome, post outcome memory) :
    Calling issuer post memory (requireActiveLease holding).run := hpost _

theorem calling_markFailed {error : String} (hstored : memory.stored = true) :
    Calling issuer keepsStored memory (markFailed holding error).run := by
  refine Holds.raising_then (fun _ other => other = memory)
    (calling_requireActiveLease fun _ => rfl)
    ?_ fun _ _ hsame => hsame ▸ hstored
  rintro - other rfl
  have hclaim : ∀ jobId now, Write.fail error ≠ .claim jobId now := by
    intro jobId now hsame
    cases hsame
  exact calling_fencedWrite hstored (fun _ => rfl) hclaim nofun

theorem calling_saveReady {synthesis : Synthesis} {stats : SourceStats}
    (hstored : memory.stored = true) :
    Calling issuer keepsStored memory (saveReady holding synthesis stats).run := by
  refine Holds.raising_then (fun _ other => other = memory)
    (calling_requireActiveLease fun _ => rfl)
    ?_ fun _ _ hsame => hsame ▸ hstored
  rintro - other rfl
  have hclaim : ∀ jobId now, Write.ready synthesis stats ≠ .claim jobId now := by
    intro jobId now hsame
    cases hsame
  exact calling_fencedWrite hstored (fun _ => rfl) hclaim fun _ => ⟨synthesis, stats, rfl⟩

theorem calling_generateBriefing {settings : Settings} (hstored : memory.stored = true) :
    Calling issuer keepsStored memory (generateBriefing settings job).run := by
  refine Holds.raising_then (fun _ other => other = memory) rfl ?_ fun _ _ hsame => hsame ▸ hstored
  rintro bundle other rfl
  split
  · exact hstored
  · split
    · refine Holds.raising_then keepsStored (calling_asked ?_ fun _ => hstored) ?_
        fun _ _ hkept => hkept
      · exact nofun
      · exact fun _ _ hkept => hkept
    · refine Holds.raising_then (fun _ memory => memory = other) rfl ?_
        fun _ _ hsame => hsame ▸ hstored
      rintro ⟨synthesis, stats⟩ memory rfl
      exact calling_saveReady hstored

theorem calling_afterGeneration {outcome : Except BriefingError Unit}
    (hstored : memory.stored = true) :
    Calling issuer (fun _ _ => True) memory (afterGeneration job outcome).run := by
  rcases outcome with error | ⟨⟩
  · unfold afterGeneration
    dsimp only
    split
    · refine Holds.raising_then keepsStored (calling_markFailed hstored) ?_ fun _ _ _ => trivial
      exact fun _ _ _ => trivial
    · trivial
  · trivial

theorem calling_handle {settings : Settings} :
    Calling issuer (fun _ _ => True) memory (handle settings job).run := by
  unfold handle
  split
  · trivial
  · refine Holds.raising_then (fun _ _ => True) trivial ?_ fun _ _ _ => trivial
    intro _ memory _
    refine Holds.raising_then claimPost calling_claim ?_ fun _ _ _ => trivial
    rintro (_ | _ | _) memory hclaim
    · trivial
    · trivial
    · refine Holds.attempt_then (calling_generateBriefing hclaim) ?_
      exact fun outcome memory hstored => calling_afterGeneration hstored

theorem calling_reserve : Calling issuer (fun _ _ => True) memory reserve.run := by
  refine Holds.raising_then (fun _ _ => True) (calling_asked trivial fun _ => trivial) ?_
    fun _ _ _ => trivial
  rintro (_ | existing) memory -
  · have hinsert : Calling issuer (fun _ _ => True) memory (asked (.insert .reserve)).run :=
      calling_asked (Or.inl rfl) fun _ => trivial
    refine Holds.attempt_then hinsert ?_
    rintro (error | ⟨⟩) memory -
    · dsimp only
      split <;> trivial
    · trivial
  · dsimp only
    split
    · trivial
    · refine Holds.raising_then (fun _ _ => True) (calling_asked nofun fun _ => trivial) ?_
        fun _ _ _ => trivial
      exact fun _ _ _ => trivial

end Calls

variable {settings : Settings} {start : State} {pool : BriefingPool}

theorem BriefingRun.kept (hstart : Unclaimed start)
    (hrun : BriefingRun settings sparing start pool) :
    pool.Held (runs sparing) Kept := by
  have hperm : ∀ memories memories' s, memories.Perm memories' → Kept memories s →
      Kept memories' s := fun _ _ _ hperm hkept =>
    ⟨hkept.1, fun memory hmem => hkept.2 memory (hperm.mem_iff.mpr hmem)⟩
  have hnew : ∀ memories s, Kept memories s → Kept ({ } :: memories) s := fun _ _ hkept =>
    ⟨hkept.1, List.forall_mem_cons.mpr ⟨⟨nofun, nofun, nofun⟩, hkept.2⟩⟩
  refine Pool.Run.held hperm ?_ ?_ ⟨hstart.claimed, nofun⟩ hrun
  · rintro memories s prog hkept (⟨job, rfl⟩ | rfl)
    · refine ⟨{ }, Holds.issue_bind ?_, hnew memories s hkept⟩
      rintro others s number s' hkept ⟨rfl, rfl⟩
      refine ⟨{ }, ⟨⟨hkept.1.stale, hkept.1.taken, hkept.1.saved, hkept.1.undone⟩, ?_⟩, ?_⟩
      · exact fun memory hmem => ⟨(hkept.2 memory hmem).time, (hkept.2 memory hmem).stored,
          (hkept.2 memory hmem).stopped⟩
      · exact Holds.then (Holds.hoist calling_handle) fun _ _ _ => trivial
    · exact ⟨{ }, Holds.then (Holds.hoist calling_reserve) fun _ _ _ => trivial,
        hnew memories s hkept⟩
  · rintro memories s s' hkept hlater
    exact ⟨hkept.1.later hlater, fun memory hmem => (hkept.2 memory hmem).later hlater⟩

/-- In any run in which no call of a claim that is not the latest stores an outcome over a claim or
a READY that is not its own, at most one job holds a claim that is not stale, and no call whose
claim was taken over has changed the READY of the latest one. -/
theorem claims_exclusive (hstart : Unclaimed start)
    (hrun : BriefingRun settings sparing start pool) :
    pool.shared.AtMostOne ∧ pool.shared.undone = false := by
  obtain ⟨memories, -, hclaimed, -⟩ := BriefingRun.kept hstart hrun
  exact ⟨hclaimed.atMostOne, hclaimed.undone⟩

def runAnswer {β : Type} (command : RunCommand β) (s : State) : β × State :=
  match β, command with
  | _, .begin => (s.calls + 1, { s with calls := s.calls + 1 })
  | _, .store issuer (.mongo command) => (command.reply s.briefing, s.perform issuer command)
  | _, .store _ .utcNow => (s.clock, s)

def runSpares {β : Type} (command : RunCommand β) (s : State) : Bool :=
  match command with
  | .store issuer (.mongo command) => sparesOthers issuer command s
  | _ => true

variable {allowed : StoreCondition}

theorem runAnswer_runs (check : ∀ {β : Type}, RunCommand β → State → Bool)
    (h : ∀ {α : Type} (issuer : Issuer) (command : Command α) (s : State),
      check (.store issuer (.mongo command)) s = true → allowed issuer command s)
    {β : Type} (command : RunCommand β) (s : State) (hcheck : check command s = true) :
    runs allowed command s (runAnswer command s).1 (runAnswer command s).2 := by
  cases command with
  | begin => exact ⟨rfl, rfl⟩
  | store issuer command =>
    cases command with
    | mongo command => exact ⟨h issuer command s hcheck, .answered⟩
    | utcNow => exact ⟨rfl, rfl⟩

def afterCall (job : JobCall) (clock : Int) (order : List Nat) (pool : BriefingPool) :
    BriefingPool :=
  (⟨handleCall { } job :: pool.threads, { pool.shared with clock := clock }⟩ : BriefingPool).turns
    runAnswer order

theorem briefingRun_afterCall {start : State} {pool : BriefingPool}
    {check : ∀ {β : Type}, RunCommand β → State → Bool}
    (h : ∀ {α : Type} (issuer : Issuer) (command : Command α) (s : State),
      check (.store issuer (.mongo command)) s = true → allowed issuer command s)
    {clock : Int} {order : List Nat} (hclock : pool.shared.clock ≤ clock)
    (hrun : BriefingRun { } allowed start pool)
    (hcheck : Pool.turnsPass runAnswer check order
      ⟨handleCall { } job :: pool.threads, { pool.shared with clock := clock }⟩ = true) :
    BriefingRun { } allowed start (afterCall job clock order pool) := by
  have hlater : BriefingRun { } allowed start ⟨pool.threads, { pool.shared with clock := clock }⟩ :=
    hrun.tail (.env ⟨clock, hclock, rfl⟩)
  have hbegun : BriefingRun { } allowed start
      ⟨handleCall { } job :: pool.threads, { pool.shared with clock := clock }⟩ :=
    hlater.tail (.spawn (.inl ⟨job, rfl⟩))
  exact hbegun.trans (Pool.turns_run check (runAnswer_runs check h) order _ hcheck)

def sampleLeased (token : String) : Holding where
  object := some
    { lease :=
        { logicalKey := "daily.briefing.requested|user:user|date:2026-01-01"
          owner := "worker"
          token := token
          messageId := "1-0"
          eventId := "e"
          eventType := "daily.briefing.requested"
          retryCount := 0 } }

def sampleSlow : JobCall := { eventId := "a", saving := sampleLeased "1" }

def sampleFast : JobCall :=
  { eventId := "b", saving := sampleLeased "2", generated := .ok (⟨"ready"⟩, { }) }

def sampleTakenOver (first : JobCall) : BriefingPool :=
  afterCall sampleFast claimStale (List.replicate 6 0 ++ List.replicate 6 1)
    (afterCall first 0 (List.replicate 4 0) ⟨[], { }⟩)

theorem sampleTakenOver_run (check : ∀ {β : Type}, RunCommand β → State → Bool)
    (h : ∀ {α : Type} (issuer : Issuer) (command : Command α) (s : State),
      check (.store issuer (.mongo command)) s = true → allowed issuer command s)
    (first : JobCall)
    (hfirst : Pool.turnsPass runAnswer check (List.replicate 4 0) ⟨[handleCall { } first], { }⟩ =
      true)
    (hsecond : Pool.turnsPass runAnswer check (List.replicate 6 0 ++ List.replicate 6 1)
      ⟨handleCall { } sampleFast :: (afterCall first 0 (List.replicate 4 0) ⟨[], { }⟩).threads,
      { (afterCall first 0 (List.replicate 4 0) ⟨[], { }⟩).shared with clock := claimStale }⟩ =
      true)
    (hclock : (afterCall first 0 (List.replicate 4 0) ⟨[], { }⟩).shared.clock ≤ claimStale) :
    BriefingRun { } allowed { } (sampleTakenOver first) :=
  briefingRun_afterCall h hclock
    (briefingRun_afterCall h (Int.le_refl _) .refl hfirst) hsecond

theorem claims_exclusive_sample :
    (sampleTakenOver sampleSlow).shared.held.length = 1 ∧
      (sampleTakenOver sampleSlow).shared.AtMostOne ∧
      (sampleTakenOver sampleSlow).shared.undone = false := by
  have hrun : BriefingRun { } sparing { } (sampleTakenOver sampleSlow) :=
    sampleTakenOver_run runSpares (fun _ _ _ h => h) sampleSlow (by decide +kernel)
      (by decide +kernel) (by decide +kernel)
  exact ⟨by decide +kernel, claims_exclusive ⟨rfl, rfl, rfl, rfl, rfl⟩ hrun⟩

def sampleInactive : JobCall := { sampleSlow with bundle := .ok { } }

theorem skipped_over_ready :
    BriefingRun { } (fun _ _ _ => True) { } (sampleTakenOver sampleInactive) ∧
      ¬ ((sampleTakenOver sampleInactive).shared.AtMostOne ∧
        (sampleTakenOver sampleInactive).shared.undone = false) := by
  constructor
  · exact sampleTakenOver_run (fun _ _ => true) (fun _ _ _ _ => trivial) sampleInactive
      (by decide +kernel) (by decide +kernel) (by decide +kernel)
  · rintro ⟨-, hundone⟩
    have hdone : (sampleTakenOver sampleInactive).shared.undone = true := by decide +kernel
    rw [hdone] at hundone
    cases hundone

end AiBuddy.DailyBriefing
