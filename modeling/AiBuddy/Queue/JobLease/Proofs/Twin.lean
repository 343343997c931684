import AiBuddy.Queue.JobLease.Proofs.LeaseHistory

/-!
# Where the twin agrees with the scripts

Both programs run on one store with one clock. They give the same reply and
leave the same keys exactly on the stores that `Call.Diverges` leaves out.
-/

namespace AiBuddy.Queue.JobLease

open Redis

variable {raw : Option String}

theorem parse_of_wellFormed (h : wellFormed (raw.getD "") = true) :
    ∃ current, parse raw = some current ∧
      luaPart (splitRecord (raw.getD "")) 2 = some current.owner ∧
      luaPart (splitRecord (raw.getD "")) 3 = some current.token ∧
      luaPart (splitRecord (raw.getD "")) 4 = some current.messageId := by
  have hne : raw.getD "" ≠ "" := by
    intro hempty
    rw [hempty] at h
    exact absurd h (by decide)
  simp only [wellFormed, luaPart, splitRecord_eq, Bool.and_eq_true, decide_eq_true_eq] at h ⊢
  obtain ⟨hversion, hlength⟩ := h
  unfold parse
  rw [if_neg hne]
  simp only
  rw [if_neg (not_or.mpr ⟨by omega, by simpa using hversion⟩)]
  have part : ∀ index < 7, (Text.split '|' (raw.getD ""))[index]? =
      some ((Text.split '|' (raw.getD "")).getD index "") := by
    intro index hindex
    rw [List.getElem?_eq_getElem (by omega), List.getD_eq_getElem?_getD,
      List.getElem?_eq_getElem (by omega), Option.getD_some]
  exact ⟨_, rfl, part 1 (by decide), part 2 (by decide), part 3 (by decide)⟩

theorem parse_of_not_wellFormed (h : ¬ wellFormed (raw.getD "") = true) : parse raw = none := by
  unfold parse
  simp only
  split
  · rfl
  · simp only [wellFormed, luaPart, splitRecord_eq, Bool.and_eq_true, decide_eq_true_eq,
      not_and, Nat.sub_self] at h ⊢
    rw [if_pos]
    by_cases hversion : (Text.split '|' (raw.getD ""))[0]? = some "v1"
    · exact .inl (by have := h hversion; omega)
    · exact .inr hversion

theorem isOf_parse {owner token : String} :
    ParsedLease.isOf (parse raw) owner token =
      (wellFormed (raw.getD "") && ownedBy (raw.getD "") owner token) := by
  by_cases h : wellFormed (raw.getD "") = true
  · obtain ⟨current, hparse, howner, htoken, -⟩ := parse_of_wellFormed h
    have hversion : luaPart (splitRecord (raw.getD "")) 1 = some "v1" := by
      simp only [wellFormed, Bool.and_eq_true, decide_eq_true_eq] at h
      exact h.1
    simp [hparse, ParsedLease.isOf, h, ownedBy, hversion, howner, htoken]
  · simp [parse_of_not_wellFormed h, ParsedLease.isOf, h]

variable {n : Int}

theorem pyInt_repr : pyInt n.repr = .ok n := by simp [pyInt]

theorem pyIntOrZero_repr : pyIntOrZero n.repr = .ok n := by
  rw [pyIntOrZero, if_neg (Text.repr_ne_empty n), pyInt_repr]

section Owner

variable {leaseKey : Key} {owner token : String} {body body' : Script Key Int}
  {effect : Db Key → Db Key} {db : Db Key}

theorem encode_eq {owner token messageId eventId eventType : String} {attempt clock : Int} :
    encode owner token messageId eventId eventType attempt clock =
      recordText owner token messageId eventId eventType attempt.repr clock.repr := rfl

theorem owner_agree_iff (hbody : ∀ db, body db = (.ok 1, effect db)) (hsame : body' = body) :
    (do let current := parse (← get leaseKey)
        if ¬ ParsedLease.isOf current owner token then return 0 else body' : Script Key Int) db =
      (do let current := (← get leaseKey).getD ""
          if current = "" then return 0
          else if ¬ ownedBy current owner token then return 0
          else body : Script Key Int) db ↔
    ¬ (ownedBy ((db.string? leaseKey).getD "") owner token = true ∧
        ¬ wellFormed ((db.string? leaseKey).getD "") = true) := by
  subst hsame
  have howned_empty : ownedBy "" owner token = false := by
    simp [ownedBy, splitRecord, splitRecord.go, luaPart]
  rcases get_cases db leaseKey with hget | hget
  · rw [Script.bind_of_ok hget, Script.bind_of_ok hget]
    simp only [isOf_parse, Bool.and_eq_true]
    generalize (db.string? leaseKey).getD "" = record
    by_cases hempty : record = ""
    · subst hempty
      simp [howned_empty]
    · by_cases howned : ownedBy record owner token = true
      · by_cases hformed : wellFormed record = true
        · simp [hempty, howned, hformed]
        · simp [hempty, howned, hformed, hbody]
      · simp [hempty, howned]
  · rw [Script.bind_of_error hget, Script.bind_of_error hget]
    simp [string?_of_get_error hget, howned_empty]

end Owner

theorem tostring_eq_repr_iff :
    n.repr = Lua.tostring n ↔ -Lua.exactBound < n ∧ n < Lua.exactBound := by
  constructor
  · intro h
    by_contra hlarge
    have hmark : '+' ∈ (Lua.tostring n).toList := Lua.plus_mem_tostring hlarge
    rw [← h] at hmark
    exact Text.notMem_repr (by decide) (by decide) n hmark
  · rintro ⟨hlow, hhigh⟩
    exact (Lua.tostring_of_lt hlow hhigh).symm

theorem acquire_agree_iff {doneKey leaseKey : Key} {owner messageId eventId eventType : String}
    {attempt ttl clock : Int} (httl : 0 < ttl) {db : Db Key} :
    twinAcquire doneKey leaseKey .jobFence owner messageId eventId eventType attempt.repr ttl.repr
        clock db =
      acquireLua doneKey leaseKey .jobFence owner messageId eventId eventType attempt.repr ttl.repr
        clock.repr db ↔
    ¬ (db.Readable doneKey ∧ db.Readable leaseKey ∧ (db.string? doneKey).getD "" = "" ∧
      if wellFormed ((db.string? leaseKey).getD "") then
        luaPart (splitRecord ((db.string? leaseKey).getD "")) 2 = some owner ∧
          luaPart (splitRecord ((db.string? leaseKey).getD "")) 4 = some messageId
      else ¬ Exact db ∧ db.count .jobFence + 1 < counterBound) := by
  have hempty : wellFormed "" = false := by decide
  unfold twinAcquire acquireLua
  rcases get_cases db doneKey with hdone | hdone
  swap
  · rw [Script.bind_of_error hdone, Script.bind_of_error hdone]
    have : ¬ db.Readable doneKey := by
      rw [← get_eq_ok_iff_readable, hdone]
      simp
    simp [this]
  have hdoneReads := get_eq_ok_iff_readable.mp hdone
  rw [Script.bind_of_ok hdone, Script.bind_of_ok hdone]
  by_cases hmarker : (db.string? doneKey).getD "" ≠ ""
  · simp [hmarker]
  rw [if_neg hmarker, if_neg hmarker]
  rcases get_cases db leaseKey with hlease | hlease
  swap
  · rw [Script.bind_of_error hlease, Script.bind_of_error hlease]
    have : ¬ db.Readable leaseKey := by
      rw [← get_eq_ok_iff_readable, hlease]
      simp
    simp [this]
  have hleaseReads := get_eq_ok_iff_readable.mp hlease
  rw [Script.bind_of_ok hlease, Script.bind_of_ok hlease]
  simp only [tonumber_repr, pyInt_repr, pyIntOrZero_repr, encode_eq]
  by_cases hformed : wellFormed ((db.string? leaseKey).getD "") = true
  · obtain ⟨current, hparse, howner, htoken, hmessage⟩ := parse_of_wellFormed hformed
    have hne : (db.string? leaseKey).getD "" ≠ "" := by
      intro h
      rw [h, hempty] at hformed
      cases hformed
    simp only [hparse, howner, htoken, hmessage, hformed, hne, ne_eq, not_false_eq_true, and_self,
      if_true, Option.some.injEq, Option.getD_some]
    by_cases hsame : current.owner = owner ∧ current.messageId = messageId
    · -- the twin raises where the script extends the lease
      have hscript : ∃ db', (do
          let ttl ← Script.ok ttl
          let _ ← pexpire leaseKey ttl
          return ("duplicate", current.token, current.owner) : Script Key _) db =
            (.ok ("duplicate", current.token, current.owner), db') := by
        rw [Script.bind_of_ok (Script.ok_apply _ _), Script.bind_of_ok
          (pexpire_of_string (eq_some_of_getD_ne_empty hne) httl)]
        exact ⟨_, rfl⟩
      obtain ⟨db', hscript⟩ := hscript
      simp only [hsame, and_self, if_true] at hscript ⊢
      rw [hscript]
      simp [hdoneReads, hleaseReads, hmarker]
    · simp [hsame]
  · simp only [parse_of_not_wellFormed hformed, hformed, Bool.false_eq_true, and_false, if_false]
    cases hincr : incr (.jobFence : Key) db with
    | mk reply db' =>
      cases reply with
      | error error =>
        rw [Script.bind_of_error hincr, Script.bind_of_error hincr]
        simp only [true_iff, not_and, Int.not_lt]
        intro _ _ _ hexact
        by_contra hbound
        have hne : db.count .jobFence ≠ 0 := by
          intro hzero
          exact hexact (by simp [Exact, hzero, Lua.exactBound])
        obtain ⟨_, hok⟩ := incr_of_count_ne_zero hne (by omega)
        rw [hincr] at hok
        cases hok
      | ok n =>
        obtain ⟨rfl, hbound, -⟩ := incr_eq_ok hincr
        rw [Script.bind_of_ok hincr, Script.bind_of_ok hincr]
        simp only [Script.bind_of_ok (Script.ok_apply _ _), Script.bind_of_ok (setPx_of_pos httl _)]
        have hexact : (db.count .jobFence + 1).repr = Lua.tostring (db.count .jobFence + 1) ↔
            Exact db := tostring_eq_repr_iff
        by_cases h : Exact db
        · simp [hexact.mpr h, h]
        · have hne := mt hexact.mp h
          simp [hne, h, hbound, hdoneReads, hleaseReads, hmarker]

theorem decisionOf_injective : Function.Injective decisionOf := by
  rintro (_ | ⟨_, _, _⟩) (_ | ⟨_, _, _⟩) h <;> simp_all [decisionOf]

theorem flagOf_injective : Function.Injective flagOf := by
  rintro (_ | _) (_ | _) h <;> simp_all [flagOf]

theorem flag_agree_iff {script script' : Script Key Int} {db : Db Key} :
    (do return Reply.flag (← script) : Script Key Reply) db =
      (do return Reply.flag (← script') : Script Key Reply) db ↔ script db = script' db := by
  rw [eval_flag, eval_flag, Prod.mk.injEq, flagOf_injective.eq_iff]
  exact Prod.ext_iff.symm

theorem decision_agree_iff {script script' : Script Key (String × String × String)} {db : Db Key} :
    (do let (action, token, owner) ← script
        return Reply.decision action token owner : Script Key Reply) db =
      (do let (action, token, owner) ← script'
          return Reply.decision action token owner : Script Key Reply) db ↔
    script db = script' db := by
  have eval (script : Script Key (String × String × String)) :
      (do let (action, token, owner) ← script
          return Reply.decision action token owner : Script Key Reply) db =
        (decisionOf (script db).1, (script db).2) := by
    rw [Script.bind_apply]
    rcases script db with ⟨_ | ⟨_, _, _⟩, _⟩ <;> rfl
  rw [eval, eval, Prod.mk.injEq, decisionOf_injective.eq_iff]
  exact Prod.ext_iff.symm

/-- The twin gives the script's reply and leaves the script's keyspace, deadlines included,
exactly where `Call.Diverges` does not hold. -/
theorem twin_agrees_iff (settings : LeaseSettings) (nowMs : Int) (call : Call) (db : Db Key) :
    applyJobLeaseEval settings nowMs call db = call.eval settings nowMs db ↔
      ¬ call.Diverges db := by
  cases call with
  | acquire event owner messageId =>
    rw [applyJobLeaseEval, Call.eval, decision_agree_iff]
    exact acquire_agree_iff settings.leaseTtlMs_pos
  | renew lease =>
    rw [applyJobLeaseEval, Call.eval, flag_agree_iff]
    refine owner_agree_iff (setPx_body settings.leaseTtlMs_pos) ?_
    simp only [pyIntOrZero_repr, pyInt_repr, tonumber_repr, Script.ok_bind, encode_eq]
  | release lease =>
    rw [applyJobLeaseEval, Call.eval, flag_agree_iff]
    exact owner_agree_iff (fun _ => rfl) rfl
  | complete lease =>
    rw [applyJobLeaseEval, Call.eval, flag_agree_iff]
    refine owner_agree_iff (setPx_body settings.completionTtlMs_pos) ?_
    simp only [pyInt_repr, tonumber_repr]

/-- A message that is delivered again to the worker that leases it: the script extends the
lease, the twin raises. -/
theorem twin_fails_on_redelivery :
    let held := ((Call.acquire sampleJob "w1" "1-0").eval {} 0 sampleStart).2
    ((Call.acquire sampleJob "w1" "1-0").eval {} 5 held).1 = .ok (.decision "duplicate" "1" "w1") ∧
      (applyJobLeaseEval {} 5 (.acquire sampleJob "w1" "1-0") held).1 =
        .error (.reply "UnboundLocalError") := by
  exact ⟨by decide +kernel, by decide +kernel⟩

end AiBuddy.Queue.JobLease
