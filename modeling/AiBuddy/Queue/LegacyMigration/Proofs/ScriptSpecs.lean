import AiBuddy.Queue.LegacyMigration.Programs

/-!
# What the scripts of the migration do

The two scripts and the record that the world keeps of them.
-/

namespace AiBuddy.Queue.LegacyMigration

open Redis

theorem publishGuard_cases {queue : Key} {mode payload : String} {db : Db Key} :
    (∃ error, publishGuard queue mode payload db = (.error error, db)) ∨
      (∃ reply, mode = "list" ∧ publishGuard queue mode payload db =
        (.ok reply, (Redis.lpush queue payload db).2)) ∨
      (mode ≠ "list" ∧
        (publishGuard queue mode payload db).2 = (xadd queue [("event", payload)] db).2) := by
  have hexists : «exists» Key.exportLock db =
      (.ok (if (db.live .exportLock).isSome then 1 else 0), db) := rfl
  unfold publishGuard
  rw [Script.bind_of_ok hexists]
  by_cases hlocked : (db.live .exportLock).isSome
  · left
    exact ⟨_, by rw [if_pos hlocked]; rfl⟩
  · rw [if_neg hlocked, if_neg (by decide)]
    by_cases hmode : mode = "list"
    · rw [if_pos hmode]
      rcases lpush_cases queue payload db with hpush | ⟨error, herror⟩
      · right; left
        rw [Script.bind_of_ok hpush, hpush]
        exact ⟨_, hmode, rfl⟩
      · left
        exact ⟨error, Script.bind_of_error herror⟩
    · right; right
      refine ⟨hmode, ?_⟩
      rw [if_neg hmode, Script.bind_apply]
      rcases xadd queue [("event", payload)] db with ⟨_ | _, _⟩ <;> rfl

variable {key : Key}

theorem list_publishGuard (queue : Key) (mode payload : String) (db : Db Key) {item : String}
    (h : item ∈ db.list key) :
    item ∈ (publishGuard queue mode payload db).2.list key := by
  rcases publishGuard_cases with
    ⟨error, herror⟩ | ⟨reply, -, hpush⟩ | ⟨-, hadd⟩
  · rwa [herror]
  · rw [hpush]
    rcases lpush_cases queue payload db with hok | ⟨error, herror⟩
    · rw [hok]
      by_cases hkey : key = queue
      · subst hkey
        rw [Db.list_storeList_self]
        exact List.mem_cons_of_mem _ h
      · rwa [Db.list_storeList_of_ne db hkey]
    · rwa [herror]
  · rw [hadd]
    exact list_xadd queue _ db h

variable {α : Type}

theorem forward_of_named {script : Script Key α} (name : String)
    (hframes : ∀ other, other ≠ key → script.Frames other) (hforward : script.Forward key) :
    script.Forward (.named name) := by
  by_cases h : Key.named name = key
  · rw [h]
    exact hforward
  · exact (hframes _ h).forward

theorem sadd_of_sismember {member : String} {db db' : Db Key} {n : Int}
    (h : Redis.sismember key member db = (.ok n, db)) (hlive : db'.live key = db.live key) :
    ∃ m db'', sadd key member db' = (.ok m, db'') := by
  unfold Redis.sismember at h
  unfold sadd
  rw [hlive]
  split at h
  · exact ⟨_, _, rfl⟩
  · split <;> exact ⟨_, _, rfl⟩
  · cases h

/-- `_ENQUEUE_ONCE_LUA` on a list: it finds the job id in the ledger, or pushes and enters it,
or fails without having done anything. -/
theorem enqueueOnce_cases (destination jobId payload : String) (db : Db Key) :
    (LegacyMigration.enqueueOnce (.named destination) jobId payload db = (.ok 0, db) ∧
        jobId ∈ db.set .exportLedger) ∨
      (∃ db', LegacyMigration.enqueueOnce (.named destination) jobId payload db = (.ok 1, db') ∧
        jobId ∉ db.set .exportLedger ∧
        db'.list (.named destination) = payload :: db.list (.named destination) ∧
        (∀ key, key ≠ .named destination → key ≠ .exportLedger → db'.live key = db.live key) ∧
        (∀ id, id ∈ db'.set .exportLedger ↔ id = jobId ∨ id ∈ db.set .exportLedger) ∧
        ∀ name, (db.stream (.named name)).Ordered →
          (db.stream (.named name)).Follows (db'.stream (.named name)) ∧
            (db'.stream (.named name)).Ordered) ∨
      ∃ error, LegacyMigration.enqueueOnce (.named destination) jobId payload db =
        (.error error, db) := by
  unfold LegacyMigration.enqueueOnce
  cases hmember : Redis.sismember .exportLedger jobId db with
  | mk reply db₁ =>
    obtain rfl : db = db₁ := by
      have hreads := reads_sismember .exportLedger jobId db
      rw [hmember] at hreads
      exact hreads.symm
    cases reply with
    | error error => exact .inr (.inr ⟨error, Script.bind_of_error hmember⟩)
    | ok n =>
      rw [Script.bind_of_ok hmember]
      have hn := sismember_eq_ok hmember
      by_cases hledger : jobId ∈ db.set .exportLedger
      · rw [if_pos hledger] at hn
        exact .inl ⟨by rw [if_pos hn]; rfl, hledger⟩
      · rw [if_neg hledger] at hn
        rw [if_neg (by rw [hn]; decide)]
        right
        rcases lpush_cases (.named destination) payload db with hpush | ⟨error, herror⟩
        · left
          have hsame : ∀ key, key ≠ .named destination →
              (db.storeList (.named destination) (payload :: db.list (.named destination))).live
                key =
                db.live key := fun key hkey => frames_writeList hkey _ db
          obtain ⟨m, db'', hadd⟩ := sadd_of_sismember hmember (hsame .exportLedger (by simp))
          rw [Script.bind_of_ok hpush, Script.bind_of_ok hadd]
          refine ⟨db'', rfl, hledger, ?_, fun key hkey hother => ?_, fun id => ?_,
            fun name hordered => ?_⟩
          · have hframe := frames_sadd (show Key.named destination ≠ .exportLedger by simp) jobId
              (db.storeList (.named destination) (payload :: db.list (.named destination)))
            rw [hadd] at hframe
            exact (Db.list_congr hframe).trans (Db.list_storeList_self _ _ _)
          · have hframe := frames_sadd hother jobId
              (db.storeList (.named destination) (payload :: db.list (.named destination)))
            rw [hadd] at hframe
            exact hframe.trans (hsame key hkey)
          · rw [sadd_eq_ok hadd id, Db.set_congr (hsame .exportLedger (by simp))]
          · have hframe := frames_sadd (show Key.named name ≠ .exportLedger by simp) jobId
              (db.storeList (.named destination) (payload :: db.list (.named destination)))
            have hforward := forward_of_named name (fun _ h => frames_lpush h payload)
              (forward_lpush (.named destination) payload) db hordered
            rw [hadd] at hframe
            rw [hpush] at hforward
            rw [Db.stream_congr hframe]
            exact hforward
        · exact .inr ⟨error, Script.bind_of_error herror⟩

theorem World.run_db (command : Command α) (w : World) :
    (World.run command w).2.db = (command.script w.db).2 := by
  unfold World.run
  rcases command.script w.db with ⟨_ | _, _⟩ <;> rfl

theorem World.run_eq_ok {command : Command α} {w w' : World} {reply : α}
    (h : World.run command w = (.ok reply, w')) :
    command.script w.db = (.ok reply, w'.db) ∧
      w' = { w.record command reply with db := w'.db } := by
  unfold World.run at h
  rcases hscript : command.script w.db with ⟨_ | value, db⟩ <;> rw [hscript] at h <;> cases h
  exact ⟨rfl, rfl⟩

theorem World.published_run (command : Command α) (w : World) :
    ∀ event ∈ w.published, event ∈ (World.run command w).2.published := by
  intro event hmem
  unfold World.run
  rcases command.script w.db with ⟨_ | reply, db⟩
  · exact hmem
  · show event ∈ (w.record command reply).published
    unfold World.record
    split
    · split
      · exact hmem
      · exact List.mem_cons_of_mem _ hmem
    · split <;> exact hmem
    · exact hmem
    · exact hmem
    · split <;> exact hmem
    · exact hmem

end AiBuddy.Queue.LegacyMigration
