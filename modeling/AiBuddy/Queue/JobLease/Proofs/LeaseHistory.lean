import AiBuddy.Queue.JobLease.Proofs.Ownership

/-!
# Leases over whole runs

The invariant that ties the grants of a run to the records, the counter and the
done markers, and what follows from it for every run.
-/

namespace AiBuddy.Queue.JobLease

open Redis

def Markers (db : Db Key) : Prop :=
  ∀ logicalKey entry, db.find (.jobDone logicalKey) = some entry →
    ∃ token, entry.value = .string token ∧ token ≠ ""

structure LeaseInv (history : List CallEvent) (db : Db Key) : Prop where
  fence : FenceKept db
  issued : ∀ grant ∈ grants history, Issued db grant.token
  increasing : (grants history).Pairwise (fun grant later => TokenLt grant.token later.token)
  held : ∀ logicalKey owner token, Holds db logicalKey owner token →
    lastGrant history logicalKey = some ⟨logicalKey, owner, token⟩
  markers : Markers db

theorem grants_append {history : List CallEvent} {event : CallEvent} :
    grants (history ++ [event]) = grants history ++ event.grant?.toList := by
  unfold grants
  rw [List.filterMap_append]
  cases h : event.grant? <;> simp [h]

variable {event : CallEvent}

theorem lastGrant_of_some {history : List CallEvent} {grant : Grant}
    (h : event.grant? = some grant) {logicalKey : String} :
    lastGrant (history ++ [event]) logicalKey =
      if grant.logicalKey = logicalKey then some grant else lastGrant history logicalKey := by
  simp only [lastGrant, grants_append, h, Option.toList_some, List.filter_append,
    List.filter_cons, List.filter_nil]
  split <;> simp_all

variable {logicalKey : String}

theorem mem_grants_of_lastGrant {history : List CallEvent} {grant : Grant}
    (h : lastGrant history logicalKey = some grant) : grant ∈ grants history :=
  (List.mem_filter.mp (List.mem_of_getLast? h)).1

variable {token messageId : String} {nowMs : Int} {lease : Lease} {job : EventEnvelope}
  {reply : Except Error Int}

section Step

variable {settings : LeaseSettings} {history : List CallEvent} {db db' : Db Key}

theorem LeaseInv.quiet {history' : List CallEvent} (inv : LeaseInv history db) (h : Quiet db db')
    (hgrants : grants history' = grants history) (hmarkers : Markers db') :
    LeaseInv history' db' where
  fence := h.fence
  issued := by
    intro grant hgrant
    rw [hgrants] at hgrant
    exact (inv.issued grant hgrant).mono h.evolves
  increasing := hgrants ▸ inv.increasing
  held := by
    intro logicalKey owner token hold
    have := inv.held _ _ _ (h.holds _ _ _ hold)
    rwa [lastGrant, hgrants]
  markers := hmarkers

theorem LeaseInv.token_ne_empty (inv : LeaseInv history db) {owner : String}
    (hold : Holds db logicalKey owner token) : token ≠ "" := by
  obtain ⟨n, rfl, -⟩ := inv.issued _ (mem_grants_of_lastGrant (inv.held _ _ _ hold))
  exact Text.repr_ne_empty n

theorem LeaseInv.passes (inv : LeaseInv history db) (h : Passes db db') : LeaseInv history db' := by
  obtain ⟨millis, rfl⟩ := h
  exact inv.quiet (quiet_advance inv.fence millis) rfl inv.markers

theorem grants_of_flag (h : event.call.lease? ≠ none) :
    grants (history ++ [event]) = grants history := by
  rw [grants_append]
  cases hcall : event.call <;> simp_all [CallEvent.grant?, Call.lease?]

def decisionOf : Except Error (String × String × String) → Except Error Reply
  | .ok (action, token, owner) => .ok (.decision action token owner)
  | .error error => .error error

def flagOf : Except Error Int → Except Error Reply
  | .ok value => .ok (.flag value)
  | .error error => .error error

theorem acquire_outcome {event : EventEnvelope} {owner : String} {reply : Except Error Reply}
    (h : (Call.acquire event owner messageId).eval settings nowMs db = (reply, db')) :
    ∃ answer, reply = decisionOf answer ∧
      AcquireOutcome settings (leaseFor event owner messageId) nowMs db answer db' := by
  have outcome := acquireEval_outcome settings (leaseFor event owner messageId) nowMs db
  rw [Call.eval, Script.bind_apply] at h
  generalize acquireEval settings (leaseFor event owner messageId) nowMs db = result
    at h outcome
  obtain ⟨answer, _⟩ := result
  refine ⟨answer, ?_⟩
  rcases answer with _ | ⟨_, _, _⟩ <;> (cases h; exact ⟨rfl, outcome⟩)

theorem eval_flag (script : Script Key Int) (db : Db Key) :
    (do return Reply.flag (← script) : Script Key Reply) db =
      (flagOf (script db).1, (script db).2) := by
  rw [Script.bind_apply]
  rcases script db with ⟨⟨⟩ | ⟨_⟩, _⟩ <;> rfl

theorem AcquireOutcome.find_done {reply : Except Error (String × String × String)}
    (h : AcquireOutcome settings lease nowMs db reply db') (logicalKey : String) :
    db'.find (.jobDone logicalKey) = db.find (.jobDone logicalKey) := by
  cases h with
  | failed | completed | busy => rfl
  | duplicate => exact Db.find_put_of_ne _ (by simp) _
  | run =>
    rw [Db.withRecord, Db.find_put_of_ne _ (by simp)]
    exact Db.find_put_of_ne _ (by simp) _

theorem AcquireOutcome.done_of_run {seen : String}
    {answer : Except Error (String × String × String)}
    (h : AcquireOutcome settings lease nowMs db answer db')
    (hrun : answer = .ok ("run", token, seen)) :
    (db.string? (.jobDone lease.logicalKey)).getD "" = "" := by
  cases h with
  | failed | completed | duplicate | busy => simp at hrun
  | run hdone => exact hdone

theorem Markers.of_find {db db' : Db Key} (h : Markers db)
    (hfind : ∀ logicalKey, db'.find (.jobDone logicalKey) = db.find (.jobDone logicalKey)) :
    Markers db' := by
  intro logicalKey entry hentry
  exact h logicalKey entry (hfind logicalKey ▸ hentry)

theorem LeaseInv.granted (inv : LeaseInv history db) {owner : String}
    (hgrant : event.grant? = some ⟨logicalKey, owner, token⟩)
    (htoken : token = (db.count .jobFence + 1).repr) (hfence : FenceKept db')
    (hcount : db'.count .jobFence = db.count .jobFence + 1)
    (hholds : ∀ key owner' token', Holds db' key owner' token' ↔ if key = logicalKey then owner' =
      owner ∧ token' = token else Holds db key owner' token')
    (hmarkers : Markers db') : LeaseInv (history ++ [event]) db' where
  fence := hfence
  issued := by
    intro grant hmem
    rw [grants_append, hgrant, Option.toList_some, List.mem_append, List.mem_singleton] at hmem
    rcases hmem with hold | rfl
    · obtain ⟨n, hn, hle⟩ := inv.issued grant hold
      exact ⟨n, hn, by omega⟩
    · exact ⟨_, htoken, by omega⟩
  increasing := by
    rw [grants_append, hgrant, Option.toList_some, List.pairwise_append]
    refine ⟨inv.increasing, List.pairwise_singleton _ _, ?_⟩
    rintro grant hold _ hlast
    obtain rfl := List.mem_singleton.mp hlast
    obtain ⟨n, hn, hle⟩ := inv.issued grant hold
    exact ⟨n, _, hn ▸ Text.decimal?_repr n, htoken ▸ Text.decimal?_repr _, by omega⟩
  held := by
    intro key owner' token' hold
    rw [hholds] at hold
    rw [lastGrant_of_some hgrant]
    split at hold
    · rename_i hkey
      obtain ⟨rfl, rfl⟩ := hold
      subst hkey
      exact if_pos rfl
    · rename_i hkey
      rw [if_neg (Ne.symm hkey)]
      exact inv.held _ _ _ hold
  markers := hmarkers

theorem grant?_acquire {answer : Except Error (String × String × String)} {owner : String}
    (h : ∀ token seen, answer ≠ .ok ("run", token, seen)) :
    CallEvent.grant? ⟨db, .acquire job owner messageId, decisionOf answer⟩ = none := by
  rcases answer with _ | ⟨action, token, seen⟩
  · rfl
  · have : action ≠ "run" := by
      rintro rfl
      exact h _ _ rfl
    simp [CallEvent.grant?, decisionOf, this]

section

variable (inv : LeaseInv history db)

include inv

theorem LeaseInv.acquire (hexact : Exact db) {owner : String} {reply : Except Error Reply}
    (h : (Call.acquire job owner messageId).eval settings nowMs db = (reply, db')) :
    LeaseInv (history ++ [⟨db, .acquire job owner messageId, reply⟩]) db' := by
  obtain ⟨answer, rfl, outcome⟩ := acquire_outcome h
  have hmarkers := inv.markers.of_find outcome.find_done
  by_cases hrun : ∀ token seen, answer ≠ .ok ("run", token, seen)
  · refine inv.quiet (quiet_acquire inv.fence outcome hrun) ?_ hmarkers
    rw [grants_append, grant?_acquire hrun, Option.toList_none, List.append_nil]
  · cases outcome with
    | failed | completed | busy | duplicate => simp at hrun
    | run hdone expireAt hexpire token written htoken hwritten hbound =>
      obtain rfl : token = written := hexact.token htoken hwritten
      have howner := bar_notMem_leaseFor_owner job owner messageId
      obtain ⟨hkept, hcount, hholds⟩ :=
        evolves_run settings nowMs howner inv.fence hexpire hwritten hbound
      refine inv.granted ?_ hwritten hkept hcount hholds hmarkers
      simp [CallEvent.grant?, decisionOf, leaseFor]

theorem LeaseInv.owner (hflag : event.call.lease? ≠ none) (h : Quiet db db')
    (hmarkers : Markers db') :
    LeaseInv (history ++ [event]) db' :=
  inv.quiet h (grants_of_flag hflag) hmarkers

theorem Markers.complete
    (h : OwnerOutcome lease (fun db => db.put (.jobDone lease.logicalKey)
      ⟨.string lease.token, some (db.now + settings.completionTtlMs.toNat)⟩) db reply db') :
    Markers db' := by
  cases h with
  | failed | refused => exact inv.markers
  | done record hrecord howned =>
    intro logicalKey entry hentry
    by_cases hkey : logicalKey = lease.logicalKey
    · subst hkey
      rw [Db.find_put_self] at hentry
      cases hentry
      exact ⟨_, rfl, inv.token_ne_empty ⟨record, hrecord, howned⟩⟩
    · rw [Db.find_put_of_ne _ (by simp [hkey])] at hentry
      exact inv.markers _ _ hentry

theorem Markers.renew
    (h : OwnerOutcome lease (fun db => Db.withRecord db settings lease.logicalKey
      (lease.record nowMs)) db reply db') :
    Markers db' := by
  cases h with
  | failed | refused => exact inv.markers
  | done => exact inv.markers.of_find (fun _ => Db.find_put_of_ne _ (by simp) _)

theorem Markers.release
    (h : OwnerOutcome lease (fun db => db.remove (.jobLease lease.logicalKey)) db reply db') :
    Markers db' := by
  cases h with
  | failed | refused => exact inv.markers
  | done => exact inv.markers.of_find (fun _ => Db.find_remove_of_ne _ (by simp))

theorem LeaseInv.call (hexact : event.Exact) (h : CallStep settings db event db') :
    LeaseInv (history ++ [event]) db' := by
  obtain ⟨rfl, nowMs, h⟩ := h
  obtain ⟨db, call, reply⟩ := event
  cases call with
  | acquire event owner messageId => exact inv.acquire (hexact rfl) h
  | renew lease =>
    rw [Call.eval, eval_flag] at h
    obtain ⟨-, rfl⟩ := Prod.mk.inj h
    exact inv.owner (by simp [Call.lease?]) (quiet_renew inv.fence rfl)
      (Markers.renew inv (renewEval_outcome settings lease nowMs db))
  | release lease =>
    rw [Call.eval, eval_flag] at h
    obtain ⟨-, rfl⟩ := Prod.mk.inj h
    exact inv.owner (by simp [Call.lease?]) (quiet_release inv.fence rfl)
      (Markers.release inv (releaseEval_outcome lease db))
  | complete lease =>
    rw [Call.eval, eval_flag] at h
    obtain ⟨-, rfl⟩ := Prod.mk.inj h
    exact inv.owner (by simp [Call.lease?]) (quiet_complete inv.fence rfl)
      (Markers.complete inv (completeEval_outcome settings lease db))

end

end Step

section Run

variable {settings : LeaseSettings} {start db : Db Key} {history : List CallEvent}

theorem not_holds_of_fresh (h : Fresh start) {logicalKey owner token : String} :
    ¬ Holds start logicalKey owner token := by
  rintro ⟨record, hrecord, -⟩
  obtain ⟨_, hlive⟩ := string?_eq_some.mp hrecord
  have hfind := (Db.live_eq_some.mp hlive).1
  rw [h.lease] at hfind
  cases hfind

theorem Fresh.leaseInv (h : Fresh start) : LeaseInv [] start where
  fence := h.fence
  issued := by simp [grants]
  increasing := by simp [grants]
  held := fun _ _ _ hold => absurd hold (not_holds_of_fresh h)
  markers := by
    intro logicalKey entry hentry
    rw [h.done] at hentry
    cases hentry

theorem LeaseRun.inv (run : LeaseRun settings start history db) (h : Fresh start)
    (hexact : ∀ event ∈ history, event.Exact) : LeaseInv history db := by
  refine run.invariant (fun history db => (∀ event ∈ history, event.Exact) → LeaseInv history db)
    (fun _ => h.leaseInv) ?_ ?_ hexact
  · intro history db event db' inv step hexact
    exact (inv fun e he => hexact e (List.mem_append_left _ he)).call
      (hexact event (by simp)) step
  · intro history db db' inv pass hexact
    exact (inv hexact).passes pass

theorem holds_of_flag_one {db' : Db Key} (h : CallStep settings db event db')
    (hlease : event.call.lease? = some lease) (hreply : event.reply = .ok (.flag 1)) :
    Holds db lease.logicalKey lease.owner lease.token := by
  obtain ⟨rfl, nowMs, h⟩ := h
  have flag_one : ∀ {answer : Except Error Int}, flagOf answer = .ok (.flag 1) →
    answer = .ok 1 := by
    rintro (_ | _) h
    · cases h
    · cases h; rfl
  obtain ⟨db, call, reply⟩ := event
  cases call with
  | acquire => cases hlease
  | renew lease =>
    cases hlease
    rw [Call.eval, eval_flag, hreply] at h
    have outcome := renewEval_outcome settings lease nowMs db
    rw [flag_one (Prod.mk.inj h).1] at outcome
    exact outcome.holds
  | release lease =>
    cases hlease
    rw [Call.eval, eval_flag, hreply] at h
    have outcome := releaseEval_outcome lease db
    rw [flag_one (Prod.mk.inj h).1] at outcome
    exact outcome.holds
  | complete lease =>
    cases hlease
    rw [Call.eval, eval_flag, hreply] at h
    have outcome := completeEval_outcome settings lease db
    rw [flag_one (Prod.mk.inj h).1] at outcome
    exact outcome.holds

theorem marker_ne_empty (h : Markers db) (hdone : MarkedDone db logicalKey) :
    (db.string? (.jobDone logicalKey)).getD "" ≠ "" := by
  obtain ⟨⟨value, expireAt⟩, hlive⟩ := Option.isSome_iff_exists.mp hdone
  obtain ⟨token, hvalue, hne⟩ := h _ _ (Db.live_eq_some.mp hlive).1
  obtain rfl : value = .string token := hvalue
  rw [string?_eq_some.mpr ⟨expireAt, hlive⟩]
  exact hne

theorem grant_none_of_markedDone {owner : String} {db' : Db Key}
    (h : CallStep settings db event db') (hmarkers : Markers db)
    (hcall : event.call = .acquire job owner messageId)
    (hdone : MarkedDone db (logicalJobKey job)) :
    event.grant? = none := by
  obtain ⟨rfl, nowMs, h⟩ := h
  obtain ⟨db, call, reply⟩ := event
  obtain rfl : call = _ := hcall
  obtain ⟨answer, rfl, outcome⟩ := acquire_outcome h
  refine grant?_acquire (fun token seen hrun => ?_)
  have hnone := outcome.done_of_run hrun
  rw [leaseFor_logicalKey] at hnone
  exact marker_ne_empty hmarkers hdone hnone

/-- Leases exclude each other, over every run in which the counter keeps to fourteen digits.
The tokens of `run` replies increase. Only the most recent grant of a key can be renewed,
released or completed, and only it is ever live. A job with a live done marker is not
granted. -/
theorem lease_exclusion (run : LeaseRun settings start history db) (h : Fresh start)
    (hexact : ∀ event ∈ history, event.Exact) :
    (grants history).Pairwise (fun grant later => TokenLt grant.token later.token) ∧
    (∀ before event after lease, history = before ++ event :: after →
      event.call.lease? = some lease → event.reply = .ok (.flag 1) →
        lastGrant before lease.logicalKey = some ⟨lease.logicalKey, lease.owner, lease.token⟩) ∧
    (∀ event ∈ history, ∀ job owner messageId, event.call = .acquire job owner messageId →
      MarkedDone event.before (logicalJobKey job) → event.grant? = none) ∧
    (∀ logicalKey owner token, Holds db logicalKey owner token →
      lastGrant history logicalKey = some ⟨logicalKey, owner, token⟩) ∧
    (∀ logicalKey owner token owner' token', Holds db logicalKey owner token →
      Holds db logicalKey owner' token' → owner = owner' ∧ token = token') := by
  have inv := LeaseRun.inv run h hexact
  have around : ∀ {before event after}, history = before ++ event :: after →
      ∃ u v, LeaseInv before u ∧ CallStep settings u event v := by
    intro before event after hhistory
    obtain ⟨u, v, hrun, hstep⟩ := run.around hhistory
    exact ⟨u, v, LeaseRun.inv hrun h (fun e he => hexact e (by simp [hhistory, he])), hstep⟩
  refine ⟨inv.increasing, ?_, ?_, inv.held, ?_⟩
  · intro before event after lease hhistory hlease hreply
    obtain ⟨u, v, hinv, hstep⟩ := around hhistory
    exact hinv.held _ _ _ (holds_of_flag_one hstep hlease hreply)
  · intro event hmem job owner messageId hcall hdone
    obtain ⟨before, after, hhistory⟩ := List.append_of_mem hmem
    obtain ⟨u, v, hinv, hstep⟩ := around hhistory
    obtain rfl := hstep.1
    exact grant_none_of_markedDone hstep hinv.markers hcall hdone
  · rintro logicalKey owner token owner' token' ⟨record, hrecord, howned⟩ ⟨_, hrecord', howned'⟩
    cases hrecord.symm.trans hrecord'
    exact ownedBy_unique howned howned'

end Run

/-! A run in which the first attempt's lease expires and a second worker takes the job. -/

def sampleJob : EventEnvelope where
  eventId := "e1"
  eventType := "stt.requested"
  correlationId := "c1"
  userId := "u1"
  spaceId := "s1"
  conversationId := "k1"
  createdAt := ""
  payload := [("jobId", .str "j1")]

def sampleStart : Db Key := ⟨0, fun _ => none⟩

def sampleLease (owner token : String) : Lease :=
  { leaseFor sampleJob owner "1-0" with token := token }

def sampleExpired : Db Key :=
  ((Call.acquire sampleJob "w1" "1-0").eval defaultLeaseSettings 0 sampleStart).2.advance 90001

def sampleTaken : Db Key :=
  ((Call.acquire sampleJob "w2" "1-0").eval defaultLeaseSettings 0 sampleExpired).2

def sampleFirst : CallEvent :=
  ⟨sampleStart, .acquire sampleJob "w1" "1-0", .ok (.decision "run" "1" "w1")⟩

def sampleSecond : CallEvent :=
  ⟨sampleExpired, .acquire sampleJob "w2" "1-0", .ok (.decision "run" "2" "w2")⟩

def sampleLate : CallEvent := ⟨sampleTaken, .complete (sampleLease "w1" "1"), .ok (.flag 0)⟩

theorem sampleRun :
    LeaseRun {} sampleStart [sampleFirst, sampleSecond, sampleLate] sampleTaken := by
  have first : LeaseRun {} sampleStart ([] ++ [sampleFirst]) _ :=
    .step .nil ⟨rfl, 0, Prod.ext (by decide +kernel) rfl⟩
  have second : LeaseRun {} sampleStart ([] ++ [sampleFirst] ++ [sampleSecond]) sampleTaken :=
    .step (.silent first ⟨90001, rfl⟩) ⟨rfl, 0, Prod.ext (by decide +kernel) rfl⟩
  exact .step second ⟨rfl, 0, Prod.ext (by decide +kernel) rfl⟩

theorem sampleStart_fresh : Fresh sampleStart :=
  ⟨fun _ => rfl, fun _ => rfl, fun _ h => nomatch h⟩

theorem sample_exact : ∀ event ∈ [sampleFirst, sampleSecond, sampleLate], event.Exact := by
  simp only [List.mem_cons, List.not_mem_nil, or_false]
  rintro event (rfl | rfl | rfl) h
  · exact ⟨by decide +kernel, by decide +kernel⟩
  · exact ⟨by decide +kernel, by decide +kernel⟩
  · cases h

theorem lease_exclusion_sample :
    (grants [sampleFirst, sampleSecond, sampleLate]).map (·.token) = ["1", "2"] ∧
      (grants [sampleFirst, sampleSecond, sampleLate]).Pairwise
        (fun grant later => TokenLt grant.token later.token) :=
  ⟨by decide +kernel, (lease_exclusion sampleRun sampleStart_fresh sample_exact).1⟩

/-! A run that starts with a counter of fourteen nines. -/

def lateStart : Db Key :=
  ⟨0, Function.update (fun _ => none) .jobFence (some ⟨.string "99999999999999", none⟩)⟩

def lateFirst : CallEvent :=
  ⟨lateStart, .acquire sampleJob "w1" "1-0", .ok (.decision "run" "1e+14" "w1")⟩

def lateExpired : Db Key :=
  ((Call.acquire sampleJob "w1" "1-0").eval defaultLeaseSettings 0 lateStart).2.advance 90001

def lateSecond : CallEvent :=
  ⟨lateExpired, .acquire sampleJob "w1" "2-0", .ok (.decision "run" "1e+14" "w1")⟩

theorem lateRun : LeaseRun {} lateStart [lateFirst, lateSecond]
    ((Call.acquire sampleJob "w1" "2-0").eval {} 0 lateExpired).2 := by
  have first : LeaseRun {} lateStart ([] ++ [lateFirst]) _ :=
    .step .nil ⟨rfl, 0, Prod.ext (by decide +kernel) rfl⟩
  exact .step (.silent first ⟨90001, rfl⟩) ⟨rfl, 0, Prod.ext (by decide +kernel) rfl⟩

theorem lateStart_fresh : Fresh lateStart := by
  refine ⟨fun _ => rfl, fun _ => rfl, fun entry h => ?_⟩
  cases h
  rfl

/-- Past fourteen digits two grants of one job carry the same token. -/
theorem lease_tokens_repeat :
    ∃ start history db, Fresh start ∧ LeaseRun {} start history db ∧
      (grants history).map (·.token) = ["1e+14", "1e+14"] ∧
      ¬ (grants history).Pairwise (fun grant later => TokenLt grant.token later.token) := by
  refine ⟨lateStart, _, _, lateStart_fresh, lateRun, by decide +kernel, ?_⟩
  have hgrants : grants [lateFirst, lateSecond] =
      [⟨"stt.requested|job:j1", "w1", "1e+14"⟩, ⟨"stt.requested|job:j1", "w1", "1e+14"⟩] := by
    decide +kernel
  rw [hgrants, List.pairwise_pair]
  rintro ⟨m, n, hm, hn, hlt⟩
  obtain rfl := Option.some.inj (hm.symm.trans hn)
  exact Int.lt_irrefl _ hlt

end AiBuddy.Queue.JobLease
