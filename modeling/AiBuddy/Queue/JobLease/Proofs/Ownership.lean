import AiBuddy.Queue.JobLease.Ownership
import AiBuddy.Queue.JobLease.Proofs.ScriptSpecs

/-!
# Who holds a lease

Every script call and every pause moves the keyspace along `Evolves`: the counter
does not fall, and an attempt that starts to hold a lease has a token that no
attempt had before. A lost lease is therefore lost for good.
-/

namespace AiBuddy.Queue.JobLease

open Redis

def FenceKept (db : Db Key) : Prop :=
  ∀ entry, db.find .jobFence = some entry → entry.expireAt = none

def Issued (db : Db Key) (token : String) : Prop :=
  ∃ n : Int, token = n.repr ∧ n ≤ db.count .jobFence

structure Evolves (db db' : Db Key) : Prop where
  count_le : db.count .jobFence ≤ db'.count .jobFence
  fence : FenceKept db'
  fresh : ∀ logicalKey owner token, Holds db' logicalKey owner token →
    Holds db logicalKey owner token ∨
      ∃ n : Int, token = n.repr ∧ db.count .jobFence < n ∧ n ≤ db'.count .jobFence

structure Quiet (db db' : Db Key) : Prop where
  count_eq : db'.count .jobFence = db.count .jobFence
  fence : FenceKept db'
  holds : ∀ logicalKey owner token, Holds db' logicalKey owner token →
    Holds db logicalKey owner token

theorem Quiet.evolves {db db' : Db Key} (h : Quiet db db') : Evolves db db' where
  count_le := Int.le_of_eq h.count_eq.symm
  fence := h.fence
  fresh := fun _ _ _ hold => .inl (h.holds _ _ _ hold)

theorem Quiet.refl {db : Db Key} (h : FenceKept db) : Quiet db db :=
  ⟨rfl, h, fun _ _ _ hold => hold⟩

theorem Issued.mono {db db' : Db Key} {token : String} (h : Issued db token)
    (evolves : Evolves db db') : Issued db' token := by
  obtain ⟨n, hn, hle⟩ := h
  exact ⟨n, hn, Int.le_trans hle evolves.count_le⟩

variable {key : Key}

theorem string?_congr {db db' : Db Key} (hlive : db'.live key = db.live key) :
    db'.string? key = db.string? key := by
  unfold Db.string?
  rw [hlive]

theorem count_congr {db db' : Db Key} (hlive : db'.live key = db.live key) :
    db'.count key = db.count key := by
  unfold Db.count
  rw [string?_congr hlive]

variable {owner : String}

theorem holds_congr {db db' : Db Key} {logicalKey token : String}
    (hlive : db'.live (.jobLease logicalKey) = db.live (.jobLease logicalKey)) :
    Holds db' logicalKey owner token ↔ Holds db logicalKey owner token := by
  unfold Holds
  rw [string?_congr hlive]

theorem Quiet.of_same {db db' : Db Key} (hfence : FenceKept db)
    (hsame : db'.find .jobFence = db.find .jobFence) (hnow : db'.now = db.now)
    (hlease : ∀ logicalKey, db'.find (.jobLease logicalKey) = db.find (.jobLease logicalKey)) :
    Quiet db db' where
  count_eq := count_congr (Db.live_congr hsame hnow)
  fence := by intro entry h; exact hfence entry (hsame ▸ h)
  holds := by
    intro logicalKey owner token hold
    exact (holds_congr (Db.live_congr (hlease logicalKey) hnow)).mp hold

theorem live_advance {db : Db Key} {millis : Nat} {entry : Entry}
    (h : (db.advance millis).live key = some entry) : db.live key = some entry := by
  obtain ⟨hfind, halive⟩ := Db.live_eq_some.mp h
  refine Db.live_eq_some.mpr ⟨hfind, ?_⟩
  cases hexpire : entry.expireAt with
  | none => simp [Entry.alive, hexpire]
  | some deadline =>
    have hlate : db.now + millis ≤ deadline := (Entry.alive_of_deadline hexpire _).mp halive
    exact (Entry.alive_of_deadline hexpire _).mpr (by omega)

theorem live_fence_advance {db : Db Key} (h : FenceKept db) {millis : Nat} :
    (db.advance millis).live .jobFence = db.live .jobFence := by
  unfold Db.live
  rw [Db.find_advance]
  cases hfind : db.find .jobFence with
  | none => rfl
  | some entry =>
    have hkept : entry.expireAt = none := h entry hfind
    simp [Option.filter, Entry.alive, hkept]

theorem quiet_advance {db : Db Key} (h : FenceKept db) (millis : Nat) :
    Quiet db (db.advance millis) where
  count_eq := count_congr (live_fence_advance h)
  fence := h
  holds := by
    rintro logicalKey owner token ⟨record, hrecord, howned⟩
    obtain ⟨expireAt, hlive⟩ := string?_eq_some.mp hrecord
    exact ⟨record, string?_eq_some.mpr ⟨expireAt, live_advance hlive⟩, howned⟩

section Record

variable {settings : LeaseSettings} {db : Db Key} {logicalKey record : String}

theorem live_withRecord_self :
    (Db.withRecord db settings logicalKey record).live (.jobLease logicalKey) =
      some ⟨.string record, some (db.now + settings.leaseTtlMs.toNat)⟩ := by
  rw [Db.withRecord, Db.live_put_self]
  simp [Entry.alive]

theorem live_withRecord_of_ne (h : key ≠ .jobLease logicalKey) :
    (Db.withRecord db settings logicalKey record).live key = db.live key :=
  Db.live_put_of_ne db h _

theorem holds_withRecord {key token : String} :
    Holds (Db.withRecord db settings logicalKey record) key owner token ↔
      if key = logicalKey then ownedBy record owner token = true else Holds db key owner token := by
  split
  · rename_i heq
    subst heq
    constructor
    · rintro ⟨record', hrecord, howned⟩
      obtain ⟨expireAt, hlive⟩ := string?_eq_some.mp hrecord
      rw [live_withRecord_self] at hlive
      cases hlive
      exact howned
    · intro howned
      exact ⟨record, string?_eq_some.mpr ⟨_, live_withRecord_self⟩, howned⟩
  · rename_i hne
    exact holds_congr (live_withRecord_of_ne (by simp [hne]))

theorem quiet_withRecord (hfence : FenceKept db)
    (h : ∀ owner token, ownedBy record owner token = true → Holds db logicalKey owner token) :
    Quiet db (Db.withRecord db settings logicalKey record) where
  count_eq := count_congr (live_withRecord_of_ne (by simp))
  fence := by
    intro entry hentry
    rw [Db.withRecord, Db.find_put_of_ne _ (by simp)] at hentry
    exact hfence entry hentry
  holds := by
    intro key owner token hold
    rw [holds_withRecord] at hold
    split at hold
    · rename_i heq
      subst heq
      exact h _ _ hold
    · exact hold

end Record

theorem holds_of_owned {db : Db Key} {logicalKey record token : String}
    (hrecord : db.string? (.jobLease logicalKey) = some record)
    (howned : ownedBy record owner token = true) {owner' token' : String}
    (h : ownedBy record owner' token' = true) : Holds db logicalKey owner' token' := by
  obtain ⟨rfl, rfl⟩ := ownedBy_unique howned h
  exact ⟨record, hrecord, h⟩

theorem count_granted {db : Db Key} (hbound : db.count .jobFence + 1 < counterBound)
    {expireAt : Option Nat} (hkept : expireAt = none) :
    (db.put .jobFence ⟨.string (db.count .jobFence + 1).repr, expireAt⟩).count .jobFence =
      db.count .jobFence + 1 := by
  subst hkept
  have hlive : (db.put .jobFence ⟨.string (db.count .jobFence + 1).repr, none⟩).live .jobFence =
      some ⟨.string (db.count .jobFence + 1).repr, none⟩ := by
    rw [Db.live_put_self]
    simp [Entry.alive]
  have hge := count_ge db .jobFence
  rw [Db.count, string?_eq_some.mpr ⟨_, hlive⟩]
  simp only [Option.bind_some]
  rw [counter?_repr (by omega) hbound]
  rfl

theorem fenceDeadline_none {db : Db Key} (h : FenceKept db) :
    (db.live .jobFence).bind Entry.expireAt = none := by
  cases hlive : db.live .jobFence with
  | none => rfl
  | some entry => exact h entry (Db.live_eq_some.mp hlive).1

theorem bar_notMem_token {n : Int} : '|' ∉ n.repr.toList := Text.notMem_repr (by decide)
    (by decide) n

theorem Exact.token {db : Db Key} (h : Exact db) {token written : String}
    (htoken : token = Lua.tostring (db.count .jobFence + 1))
    (hwritten : written = (db.count .jobFence + 1).repr) : token = written := by
  rw [htoken, hwritten, Lua.tostring_of_lt h.1 h.2]

variable {lease : Lease} {reply : Except Error Int}

section Scripts

variable {settings : LeaseSettings} {db db' : Db Key}

theorem evolves_run (settings : LeaseSettings) (nowMs : Int) {expireAt : Option Nat}
    {token : String} (howner : '|' ∉ lease.owner.toList) (hfence : FenceKept db)
    (hexpire : (db.live .jobFence).bind Entry.expireAt = expireAt)
    (htoken : token = (db.count .jobFence + 1).repr)
    (hbound : db.count .jobFence + 1 < counterBound) :
    let db' := Db.withRecord (db.put .jobFence ⟨.string token, expireAt⟩) settings
      lease.logicalKey ({ lease with token := token }.record nowMs)
    FenceKept db' ∧ db'.count .jobFence = db.count .jobFence + 1 ∧
      ∀ key owner' token', Holds db' key owner' token' ↔
        if key = lease.logicalKey then owner' = lease.owner ∧ token' = token
        else Holds db key owner' token' := by
  have hkept : expireAt = none := hexpire.symm.trans (fenceDeadline_none hfence)
  refine ⟨?_, ?_, ?_⟩
  · intro entry hentry
    rw [Db.withRecord, Db.find_put_of_ne _ (by simp), Db.find_put_self] at hentry
    cases hentry
    exact hkept
  · rw [count_congr (live_withRecord_of_ne (by simp)), htoken]
    exact count_granted hbound hkept
  · intro key owner' token'
    have htok : '|' ∉ token.toList := htoken ▸ bar_notMem_token
    rw [holds_withRecord, Lease.record, ownedBy_recordText howner htok,
      holds_congr (Db.live_put_of_ne db (by simp) _)]

theorem quiet_acquire {nowMs : Int} (hfence : FenceKept db)
    {reply : Except Error (String × String × String)}
    (h : AcquireOutcome settings lease nowMs db reply db')
    (hrun : ∀ token owner, reply ≠ .ok ("run", token, owner)) : Quiet db db' := by
  cases h with
  | failed | completed | busy => exact Quiet.refl hfence
  | duplicate record token hrecord howned =>
    exact quiet_withRecord hfence (fun _ _ => holds_of_owned hrecord howned)
  | run => exact absurd rfl (hrun _ _)

theorem quiet_owner {effect : Db Key → Db Key} (hfence : FenceKept db)
    (heffect : ∀ record, db.string? (.jobLease lease.logicalKey) = some record →
      ownedBy record lease.owner lease.token = true → Quiet db (effect db))
    (h : OwnerOutcome lease effect db reply db') : Quiet db db' := by
  cases h with
  | failed | refused => exact Quiet.refl hfence
  | done record hrecord howned => exact heffect record hrecord howned

theorem quiet_renew (hfence : FenceKept db) {nowMs : Int}
    (h : renewEval settings lease nowMs db = (reply, db')) : Quiet db db' := by
  have outcome := renewEval_outcome settings lease nowMs db
  rw [h] at outcome
  refine quiet_owner hfence (fun record hrecord howned => ?_) outcome
  obtain ⟨howner, htoken⟩ := notMem_of_ownedBy howned
  refine quiet_withRecord hfence (fun owner token hown => ?_)
  obtain ⟨rfl, rfl⟩ := (ownedBy_recordText howner htoken _ _).mp hown
  exact ⟨record, hrecord, howned⟩

theorem quiet_release (hfence : FenceKept db) (h : releaseEval lease db = (reply, db')) :
    Quiet db db' := by
  have outcome := releaseEval_outcome lease db
  rw [h] at outcome
  refine quiet_owner hfence (fun _ _ _ => ?_) outcome
  refine ⟨?_, ?_, ?_⟩
  · exact count_congr (Db.live_remove_of_ne db (by simp))
  · intro entry hentry
    rw [Db.find_remove_of_ne _ (by simp)] at hentry
    exact hfence entry hentry
  · intro key owner token hold
    by_cases hkey : key = lease.logicalKey
    · subst hkey
      obtain ⟨record, hrecord, -⟩ := hold
      obtain ⟨_, hlive⟩ := string?_eq_some.mp hrecord
      rw [Db.live_remove_self] at hlive
      cases hlive
    · exact (holds_congr (Db.live_remove_of_ne db (by simp [hkey]))).mp hold

theorem quiet_complete (hfence : FenceKept db) (h : completeEval settings lease db = (reply, db')) :
    Quiet db db' := by
  have outcome := completeEval_outcome settings lease db
  rw [h] at outcome
  refine quiet_owner hfence (fun _ _ _ => ?_) outcome
  exact Quiet.of_same hfence (Db.find_put_of_ne _ (by simp) _) rfl
    (fun _ => Db.find_put_of_ne _ (by simp) _)

theorem OwnerOutcome.holds {effect : Db Key → Db Key}
    (h : OwnerOutcome lease effect db (.ok 1) db') :
    Holds db lease.logicalKey lease.owner lease.token := by
  cases h with
  | done record hrecord howned => exact ⟨record, hrecord, howned⟩

end Scripts

end AiBuddy.Queue.JobLease
