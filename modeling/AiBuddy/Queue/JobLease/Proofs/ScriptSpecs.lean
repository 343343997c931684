import AiBuddy.Queue.JobLease.Scripts

/-!
# What a lease script can do

One inversion result per script: the replies it can give and the keyspace it leaves.
Every later fact about leases is read off these.
-/

namespace AiBuddy.Queue.JobLease

open Redis

theorem splitRecord_go {part rest : List Char} :
    splitRecord.go part rest =
      ((rest.splitOn '|').modifyHead (part ++ ·)).map String.ofList := by
  induction rest generalizing part with
  | nil => simp [splitRecord.go]
  | cons c rest ih =>
    rw [List.splitOn_cons_eq_if_modifyHead]
    by_cases hc : c = '|'
    · subst hc
      rw [splitRecord.go, if_pos rfl, ih]
      cases h : rest.splitOn '|' with
      | nil => exact absurd h (List.splitOn_ne_nil _ _)
      | cons p ps => simp
    · rw [splitRecord.go, if_neg hc, ih]
      cases rest.splitOn '|' <;> simp [hc]

theorem splitRecord_eq (value : String) : splitRecord value = Text.split '|' value := by
  rw [splitRecord, splitRecord_go, Text.split]
  cases value.toList.splitOn '|' <;> simp

theorem splitRecord_cons {x y : String} {rest : List String} (hx : '|' ∉ x.toList) :
    splitRecord ("|".intercalate (x :: y :: rest)) =
      x :: splitRecord ("|".intercalate (y :: rest)) := by
  rw [splitRecord_eq, splitRecord_eq]
  exact Text.split_intercalate_cons hx

section Record

variable {owner token messageId eventId eventType retryCount heartbeatMs : String}

theorem splitRecord_recordText (howner : '|' ∉ owner.toList) (htoken : '|' ∉ token.toList) :
    splitRecord (recordText owner token messageId eventId eventType retryCount heartbeatMs) =
      "v1" :: owner :: token ::
        splitRecord ("|".intercalate [messageId, eventId, eventType, retryCount, heartbeatMs]) := by
  rw [recordText, splitRecord_cons (by decide), splitRecord_cons howner, splitRecord_cons htoken]

theorem ownedBy_recordText (howner : '|' ∉ owner.toList) (htoken : '|' ∉ token.toList)
    (owner' token' : String) :
    ownedBy (recordText owner token messageId eventId eventType retryCount heartbeatMs)
      owner' token' = true ↔ owner' = owner ∧ token' = token := by
  simp only [ownedBy, splitRecord_recordText howner htoken, luaPart, Nat.sub_self,
    Nat.add_one_sub_one, List.getElem?_cons_zero, List.getElem?_cons_succ, decide_true,
    Bool.true_and, Bool.and_eq_true, decide_eq_true_eq, Option.some.injEq]
  exact ⟨fun h => ⟨h.1.symm, h.2.symm⟩, fun h => ⟨h.1.symm, h.2.symm⟩⟩

end Record

theorem notMem_of_ownedBy {record owner token : String} (h : ownedBy record owner token = true) :
    '|' ∉ owner.toList ∧ '|' ∉ token.toList := by
  simp only [ownedBy, Bool.and_eq_true, decide_eq_true_eq, luaPart, splitRecord_eq] at h
  exact ⟨Text.notMem_of_mem_split (List.mem_of_getElem? h.1.2),
    Text.notMem_of_mem_split (List.mem_of_getElem? h.2)⟩

theorem ownedBy_unique {record owner token owner' token' : String}
    (h : ownedBy record owner token = true) (h' : ownedBy record owner' token' = true) :
    owner = owner' ∧ token = token' := by
  simp only [ownedBy, Bool.and_eq_true, decide_eq_true_eq] at h h'
  constructor
  · have := h.1.2.symm.trans h'.1.2
    simpa using this
  · have := h.2.symm.trans h'.2
    simpa using this

theorem tonumber_repr (n : Int) : tonumber n.repr = .ok n := by simp [tonumber]

variable {key : Key} {text : String}

theorem setPx_of_pos {millis : Int} (h : 0 < millis) (db : Db Key) :
    setPx key text millis db =
      (.ok (), db.put key ⟨.string text, some (db.now + millis.toNat)⟩) := by
  unfold setPx
  rw [if_neg (by omega)]

theorem string?_eq_some {db : Db Key} :
    db.string? key = some text ↔ ∃ expireAt, db.live key = some ⟨.string text, expireAt⟩ := by
  unfold Db.string?
  split
  · rename_i text' expireAt h
    constructor
    · rintro ⟨rfl⟩; exact ⟨expireAt, h⟩
    · rintro ⟨_, h'⟩; rw [h] at h'; cases h'; rfl
  · rename_i h
    constructor
    · intro h'; cases h'
    · rintro ⟨expireAt, h'⟩; exact absurd h' (h text expireAt)

theorem pexpire_of_string {db : Db Key} {millis : Int} (h : db.string? key = some text)
    (hpos : 0 < millis) :
    pexpire key millis db =
      (.ok 1, db.put key ⟨.string text, some (db.now + millis.toNat)⟩) := by
  obtain ⟨expireAt, hlive⟩ := string?_eq_some.mp h
  unfold pexpire
  rw [hlive]
  simp only
  rw [if_neg (by omega)]

theorem eq_some_of_getD_ne_empty {text : Option String} (h : text.getD "" ≠ "") :
    text = some (text.getD "") := by
  cases text with
  | none => exact absurd rfl h
  | some _ => rfl

variable {settings : LeaseSettings} {db : Db Key}

def Db.withRecord (db : Db Key) (settings : LeaseSettings) (logicalKey record : String) : Db Key :=
  db.put (.jobLease logicalKey) ⟨.string record, some (db.now + settings.leaseTtlMs.toNat)⟩

def Lease.record (lease : Lease) (nowMs : Int) : String :=
  recordText lease.owner lease.token lease.messageId lease.eventId lease.eventType
    lease.retryCount.repr nowMs.repr

/-- The replies and effects of `acquire_lease`'s script call. -/
inductive AcquireOutcome (settings : LeaseSettings) (lease : Lease) (nowMs : Int) (db : Db Key) :
    Except Error (String × String × String) → Db Key → Prop where
  | failed (error : Error) : AcquireOutcome settings lease nowMs db (.error error) db
  | completed (marker : String) (hmarker : db.string? (.jobDone lease.logicalKey) = some marker)
      (hne : marker ≠ "") :
      AcquireOutcome settings lease nowMs db (.ok ("completed", "", "")) db
  | duplicate (record token : String)
      (hrecord : db.string? (.jobLease lease.logicalKey) = some record)
      (howned : ownedBy record lease.owner token = true) :
      AcquireOutcome settings lease nowMs db (.ok ("duplicate", token, lease.owner))
        (Db.withRecord db settings lease.logicalKey record)
  | busy (token holder : String) :
      AcquireOutcome settings lease nowMs db (.ok ("busy", token, holder)) db
  | run (hdone : (db.string? (.jobDone lease.logicalKey)).getD "" = "")
      (expireAt : Option Nat) (hexpire : (db.live .jobFence).bind Entry.expireAt = expireAt)
      (token written : String) (htoken : token = Lua.tostring (db.count .jobFence + 1))
      (hwritten : written = (db.count .jobFence + 1).repr)
      (hbound : db.count .jobFence + 1 < counterBound) :
      AcquireOutcome settings lease nowMs db (.ok ("run", token, lease.owner))
        (Db.withRecord (db.put .jobFence ⟨.string written, expireAt⟩) settings lease.logicalKey
          ({ lease with token := token }.record nowMs))

theorem acquireEval_outcome (settings : LeaseSettings) (lease : Lease) (nowMs : Int) (db : Db Key) :
    AcquireOutcome settings lease nowMs db
      (acquireEval settings lease nowMs db).1 (acquireEval settings lease nowMs db).2 := by
  have httl := settings.leaseTtlMs_pos
  unfold acquireEval acquireLua
  rcases get_cases db (.jobDone lease.logicalKey) with hdone | hdone
  swap
  · rw [Script.bind_of_error hdone]; exact .failed _
  rw [Script.bind_of_ok hdone]
  by_cases hmarker : (db.string? (.jobDone lease.logicalKey)).getD "" ≠ ""
  · rw [if_pos hmarker]
    exact .completed _ (eq_some_of_getD_ne_empty hmarker) hmarker
  rw [if_neg hmarker]
  rcases get_cases db (.jobLease lease.logicalKey) with hlease | hlease
  swap
  · rw [Script.bind_of_error hlease]; exact .failed _
  rw [Script.bind_of_ok hlease]
  simp only [tonumber_repr]
  split
  · rename_i hrecord
    have hsome := eq_some_of_getD_ne_empty hrecord.1
    generalize (db.string? (.jobLease lease.logicalKey)).getD "" = record at hrecord hsome
    obtain ⟨hv1, hlen⟩ : luaPart (splitRecord record) 1 = some "v1" ∧
        7 ≤ (splitRecord record).length := by
      simpa [wellFormed] using hrecord.2
    split
    · rename_i hown
      obtain ⟨token, htoken⟩ : ∃ token, luaPart (splitRecord record) 3 = some token :=
        ⟨_, List.getElem?_eq_getElem (by omega)⟩
      rw [Script.bind_of_ok (Script.ok_apply _ _), Script.bind_of_ok (pexpire_of_string hsome httl)]
      simp only [Script.pure_apply, hown.1, htoken, Option.getD_some]
      exact .duplicate record token hsome (by simp [ownedBy, hv1, hown.1, htoken])
    · exact .busy _ _
  · cases hincr : incr (.jobFence : Key) db with
    | mk reply db' =>
      cases reply with
      | error error =>
        obtain rfl := incr_eq_error hincr
        rw [Script.bind_of_error hincr]
        exact .failed _
      | ok n =>
        obtain ⟨hn, hbound, expireAt, rfl, hexpire⟩ := incr_eq_ok hincr
        rw [Script.bind_of_ok hincr, Script.bind_of_ok (Script.ok_apply _ _),
          Script.bind_of_ok (setPx_of_pos httl _)]
        exact .run (by simpa using hmarker) expireAt hexpire _ n.repr (by rw [hn]) (by rw [hn])
          (by omega)

/-- The replies and effects shared by renew, release and complete: a failed command, a
refusal, or `1` after `effect` on a live record of the attempt. -/
inductive OwnerOutcome (lease : Lease) (effect : Db Key → Db Key) (db : Db Key) :
    Except Error Int → Db Key → Prop where
  | failed (error : Error) : OwnerOutcome lease effect db (.error error) db
  | refused : OwnerOutcome lease effect db (.ok 0) db
  | done (record : String) (hrecord : db.string? (.jobLease lease.logicalKey) = some record)
      (howned : ownedBy record lease.owner lease.token = true) :
      OwnerOutcome lease effect db (.ok 1) (effect db)

theorem owner_outcome (lease : Lease) {effect : Db Key → Db Key} {body : Script Key Int}
    (hbody : ∀ db, body db = (.ok 1, effect db)) (db : Db Key) :
    let script : Script Key Int := do
      let current := (← get (.jobLease lease.logicalKey)).getD ""
      if current = "" then return 0
      else if ¬ ownedBy current lease.owner lease.token then return 0
      else body
    OwnerOutcome lease effect db (script db).1 (script db).2 := by
  intro script
  rcases get_cases db (.jobLease lease.logicalKey) with hlease | hlease
  swap
  · simp only [script]
    rw [Script.bind_of_error hlease]; exact .failed _
  simp only [script]
  rw [Script.bind_of_ok hlease]
  split
  · exact .refused
  · rename_i hne
    split
    · exact .refused
    · rename_i howned
      rw [hbody]
      exact .done _ (eq_some_of_getD_ne_empty hne) (by simpa using howned)

theorem setPx_body {ttl : Int} (h : 0 < ttl) (db : Db Key) :
    (do let ttl ← tonumber ttl.repr
        setPx key text ttl
        return 1 : Script Key Int) db =
      (.ok 1, db.put key ⟨.string text, some (db.now + ttl.toNat)⟩) := by
  rw [tonumber_repr, Script.ok_bind, Script.bind_of_ok (setPx_of_pos h _)]
  rfl

theorem renewEval_outcome (settings : LeaseSettings) (lease : Lease) (nowMs : Int) (db : Db Key) :
    OwnerOutcome lease (fun db => Db.withRecord db settings lease.logicalKey (lease.record nowMs))
      db
      (renewEval settings lease nowMs db).1 (renewEval settings lease nowMs db).2 :=
  owner_outcome lease (setPx_body settings.leaseTtlMs_pos) db

theorem releaseEval_outcome (lease : Lease) (db : Db Key) :
    OwnerOutcome lease (fun db => db.remove (.jobLease lease.logicalKey)) db
      (releaseEval lease db).1 (releaseEval lease db).2 :=
  owner_outcome lease (fun _ => rfl) db

theorem completeEval_outcome (settings : LeaseSettings) (lease : Lease) (db : Db Key) :
    OwnerOutcome lease (fun db => db.put (.jobDone lease.logicalKey)
        ⟨.string lease.token, some (db.now + settings.completionTtlMs.toNat)⟩) db
      (completeEval settings lease db).1 (completeEval settings lease db).2 :=
  owner_outcome lease (setPx_body settings.completionTtlMs_pos) db

end AiBuddy.Queue.JobLease
