import AiBuddy.Queue.LegacyMigration.Proofs.ScriptSpecs

/-!
# No item is lost

Every command but `LREM` and `LMOVE` keeps all items where they are. `LMOVE` moves
one, and before an `LREM` the item has been published or restored.
-/

namespace AiBuddy.Queue.LegacyMigration

open Redis Program

variable {codec : Codec} {settings : MigrationSettings} {kind : Kind} {lists : QueueLists}
  {stream : Key} {w w' w₁ w₂ : World} {item raw : String}

theorem QueueLists.source_ne_processing (lists : QueueLists) :
    lists.source ≠ lists.processing := by
  intro h
  have hlength := congrArg String.length (Key.named.inj h)
  simp at hlength

theorem QueueLists.failed_ne_processing (lists : QueueLists) :
    lists.failed ≠ lists.processing := by
  intro h
  have hlength := congrArg String.length (Key.named.inj h)
  rw [String.length_append, String.length_append] at hlength
  have : String.length ":migration_failed" ≠ String.length ":migrating" := by decide
  omega

theorem QueueLists.failed_ne_source (lists : QueueLists) : lists.failed ≠ lists.source := by
  intro h
  have hlength := congrArg String.length (Key.named.inj h)
  simp at hlength

def Kept (w w' : World) : Prop :=
  (∀ key item, item ∈ w.db.list key → item ∈ w'.db.list key) ∧
    ∀ event ∈ w.published, event ∈ w'.published

theorem Kept.refl (w : World) : Kept w w := ⟨fun _ _ h => h, fun _ h => h⟩

variable {α : Type}

theorem kept_of_answers {reply : Except Error α} (command : Command α)
    (hlists : ∀ db key item, item ∈ db.list key → item ∈ (command.script db).2.list key)
    (h : Performed command w reply w') : Kept w w' := by
  rcases h.state with rfl | rfl
  · exact Kept.refl _
  · refine ⟨fun key item hmem => ?_, World.published_run command w⟩
    rw [World.run_db]
    exact hlists _ _ _ hmem

theorem kept_of_reads {reply : Except Error α} (command : Command α)
    (hreads : command.script.Reads) (h : Performed command w reply w') : Kept w w' :=
  kept_of_answers command (fun db key item hmem => by rwa [hreads db]) h

theorem list_enqueueOnce (destination jobId payload : String) (db : Db Key) (other : Key)
    (there : String) (h : there ∈ db.list other) :
    there ∈ (LegacyMigration.enqueueOnce (.named destination) jobId payload db).2.list other := by
  rcases enqueueOnce_cases destination jobId payload db with
    ⟨hok, -⟩ | ⟨db', hok, -, hlist, hframe, -, -⟩ | ⟨error, herror⟩
  · rwa [hok]
  · rw [hok]
    by_cases hother : other = .named destination
    · subst hother
      rw [hlist]
      exact List.mem_cons_of_mem _ h
    · by_cases hledger : other = .exportLedger
      · -- the ledger is a set, so it has no list items
        subst hledger
        have hmember : ∃ n, Redis.sismember .exportLedger jobId db = (.ok n, db) := by
          unfold LegacyMigration.enqueueOnce at hok
          obtain ⟨n, db₁, hmember, -⟩ := Script.bind_eq_ok hok
          have hreads := reads_sismember .exportLedger jobId db
          rw [hmember] at hreads
          cases hreads
          exact ⟨n, hmember⟩
        obtain ⟨n, hmember⟩ := hmember
        unfold Redis.sismember at hmember
        unfold Db.list at h
        split at hmember <;> simp_all
      · rwa [Db.list_congr (hframe other hother hledger)]
  · rwa [herror]

variable {reply : Except Error Int}

section Kept

variable {key : Key}

theorem kept_llen (h : Performed (.llen key) w reply w') : Kept w w' :=
  kept_of_reads (.llen key) (reads_llen key) h

theorem kept_lindexLast {reply : Except Error (Option String)}
    (h : Performed (.lindexLast key) w reply w') : Kept w w' :=
  kept_of_reads (.lindexLast key) (reads_lindexLast key) h

theorem kept_hgetall {reply : Except Error Fields} (h : Performed (.hgetall key) w reply w') :
    Kept w w' := kept_of_reads (.hgetall key) (reads_hgetall key) h

theorem kept_guardedQueueWrite {mode payload : String} {reply : Except Error String}
    (h : Performed (.guardedQueueWrite key mode payload) w reply w') : Kept w w' :=
  kept_of_answers (.guardedQueueWrite key mode payload)
    (fun db _ _ => list_publishGuard key mode payload db) h

theorem kept_enqueueOnce {destination jobId payload : String}
    (h : Performed (.enqueueOnce (.named destination) jobId payload) w reply w') : Kept w w' :=
  kept_of_answers (.enqueueOnce (.named destination) jobId payload)
    (list_enqueueOnce destination jobId payload) h

end Kept

theorem Placed.mono (h : Placed codec kind lists stream w item)
    (hlists : ∀ key ∈ [lists.source, lists.failed], ∀ item ∈ w.db.list key, item ∈ w'.db.list key)
    (hpublished : ∀ event ∈ w.published, event ∈ w'.published) :
    Placed codec kind lists stream w' item := by
  rcases h with hsource | hfailed | ⟨text, hmem, hevent⟩
  · exact .inl (hlists _ (by simp) _ hsource)
  · exact .inr (.inl (hlists _ (by simp) _ hfailed))
  · exact .inr (.inr ⟨text, hpublished _ hmem, hevent⟩)

theorem Placed.elsewhere (h : Placed codec kind lists stream w item) (he : Elsewhere lists w w') :
    Placed codec kind lists stream w' item :=
  h.mono (fun key hkey => he.1 key (by simp at hkey ⊢; tauto)) (fun event hmem => by rwa [he.2])

theorem Placed.kept (h : Placed codec kind lists stream w item) (hkept : Kept w w') :
    Placed codec kind lists stream w' item := h.mono (fun key _ => hkept.1 key) hkept.2

def NothingLost (codec : Codec) (kind : Kind) (lists : QueueLists) (stream : Key)
    (w w' : World) : Prop :=
  ∀ item, Present codec kind lists stream w item → Present codec kind lists stream w' item

theorem nothingLost_of_held
    (h : ∀ item, Held codec kind lists stream w item → Held codec kind lists stream w' item) :
    NothingLost codec kind lists stream w w' :=
  fun _ ⟨form, hform, hheld⟩ => ⟨form, hform, h form hheld⟩

theorem Kept.nothingLost (h : Kept w w') : NothingLost codec kind lists stream w w' :=
  nothingLost_of_held fun _ hheld =>
    hheld.imp (h.1 _ _) (fun hplaced => hplaced.kept h)

theorem Elsewhere.nothingLost (h : Elsewhere lists w w') :
    NothingLost codec kind lists stream w w' :=
  nothingLost_of_held fun _ hheld =>
    hheld.imp (h.1 _ (by simp) _) (fun hplaced => hplaced.elsewhere h)

theorem Elsewhere.refl (w : World) : Elsewhere lists w w := ⟨fun _ _ _ h => h, rfl⟩

theorem Elsewhere.trans (h₁ : Elsewhere lists w w₁) (h₂ : Elsewhere lists w₁ w₂) :
    Elsewhere lists w w₂ :=
  ⟨fun key hkey _ hmem => h₂.1 key hkey _ (h₁.1 key hkey _ hmem), h₂.2.trans h₁.2⟩

theorem nothingLost_lrem {form : String} (h : Performed (.lrem lists.processing raw) w reply w')
    (hform : Relation.ReflTransGen (RestoredTo codec kind) raw form)
    (hplaced : Placed codec kind lists stream w form) :
    NothingLost codec kind lists stream w w' := by
  have hpublished : ∀ event ∈ w.published, event ∈ w'.published := by
    rcases h.state with rfl | rfl
    · exact fun _ hmem => hmem
    · exact World.published_run _ w
  have hother : ∀ key, key ≠ lists.processing → w'.db.list key = w.db.list key := by
    intro key hkey
    rcases h.state with rfl | rfl
    · rfl
    · rw [World.run_db]
      exact Db.list_congr (frames_lrem hkey raw w.db)
  have hprocessing : ∀ there, there ≠ raw → there ∈ w.db.list lists.processing →
      there ∈ w'.db.list lists.processing := by
    intro there hne hmem
    rcases h.state with rfl | rfl
    · exact hmem
    · rw [World.run_db]
      show there ∈ (Redis.lrem lists.processing raw w.db).2.list lists.processing
      rw [list_lrem]
      exact (List.mem_erase_of_ne hne).mpr hmem
  have hmono : ∀ {form}, Placed codec kind lists stream w form →
      Placed codec kind lists stream w' form := fun hitem => by
    refine hitem.mono (fun key hkey there hmem => ?_) hpublished
    rw [hother key ?_]
    · exact hmem
    · rcases List.mem_pair.mp hkey with rfl | rfl
      · exact lists.source_ne_processing
      · exact lists.failed_ne_processing
  rintro _ ⟨reached, hreached, hheld⟩
  by_cases hraw : reached = raw
  · subst hraw
    exact ⟨form, hreached.trans hform, .inr (hmono hplaced)⟩
  · exact ⟨reached, hreached, hheld.imp (hprocessing _ hraw) hmono⟩

theorem nothingLost_lmove {reply : Except Error (Option String)}
    (h : Performed (.lmove lists.source lists.processing) w reply w') :
    NothingLost codec kind lists stream w w' := by
  rcases h.state with rfl | hrun
  · exact (Kept.refl _).nothingLost
  · subst hrun
    have hdb : (World.run (.lmove lists.source lists.processing) w).2.db =
      (lmoveRightLeft lists.source lists.processing w.db).2 := World.run_db _ w
    have hpublished := World.published_run (.lmove lists.source lists.processing) w
    rcases lmoveRightLeft_cases lists.source_ne_processing w.db with
      ⟨moved, db', hmove, hlast, hsource, hprocessing⟩ | ⟨hsame, -⟩
    · rw [hmove] at hdb
      refine nothingLost_of_held fun item hheld => ?_
      rcases hheld with hmem | hmem | hmem | ⟨text, hmem, hevent⟩
      · left
        rw [hdb, hprocessing]
        exact List.mem_cons_of_mem _ hmem
      · by_cases hmoved : item = moved
        · left
          rw [hdb, hprocessing, hmoved]
          exact List.mem_cons_self
        · right; left
          rw [hdb, hsource]
          have hsplit := List.dropLast_append_getLast? moved (Option.mem_def.mpr hlast)
          rw [← hsplit] at hmem
          exact (List.mem_append.mp hmem).resolve_right (by simp [hmoved])
      · right; right; left
        have hframe := frames_lmoveRightLeft lists.failed_ne_source lists.failed_ne_processing w.db
        rw [hmove] at hframe
        rwa [hdb, Db.list_congr hframe]
      · exact .inr (.inr (.inr ⟨text, hpublished _ hmem, hevent⟩))
    · refine Kept.nothingLost ⟨fun key item hmem => ?_, hpublished⟩
      rw [hdb, hsame]
      exact hmem

/-- What holds of the outcome wherever a program is stopped or ends, if it takes up only what it
does not drop. -/
abbrev Keeps {α : Type} (codec : Codec) (kind : Kind) (lists : QueueLists) (stream : Key)
    (post : Except Fault α → World → Prop) (prog : Migration α) (w : World) : Prop :=
  Program.Safe
    (Remote.semantics fun command w reply w' =>
      Sound codec kind lists stream command w ∧ Performed command w reply w')
    (Elsewhere lists) (fun _ w w' => NothingLost codec kind lists stream w w') post prog.run w

theorem keeps_redis {command : Command α} {post : Except Fault α → World → Prop}
    (hkept : ∀ w reply w', Performed command w reply w' → Kept w w')
    (hpost : ∀ w₁ reply w₂, Elsewhere lists w w₁ → Sound codec kind lists stream command w₁ →
      Performed command w₁ reply w₂ → post (reply.mapError Fault.redis) w₂) :
    Keeps codec kind lists stream post (redis command) w :=
  Safe.send fun w₁ reply w₂ he hstep =>
    ⟨(hkept _ _ _ hstep.2).nothingLost, hpost w₁ reply w₂ he hstep.1 hstep.2⟩

theorem keeps_llen {key : Key} :
    Keeps codec kind lists stream (fun _ _ => True) (redis (.llen key)) w :=
  keeps_redis (fun _ _ _ => kept_llen) (fun _ _ _ _ _ _ => trivial)

theorem keeps_bind_trivial {β : Type} {prog : Migration α} {f : α → Migration β}
    (h : Keeps codec kind lists stream (fun _ _ => True) prog w)
    (hf : ∀ value w, Keeps codec kind lists stream (fun _ _ => True) (f value) w) :
    Keeps codec kind lists stream (fun _ _ => True) (prog >>= f) w :=
  Safe.then h (fun value w _ => hf value w) (fun _ _ _ => trivial)

theorem keeps_throw (fault : Fault) :
    Keeps codec kind lists stream (fun _ _ => True) (throw fault : Migration α) w := trivial

theorem keeps_takeUp :
    Keeps codec kind lists stream
      (fun outcome _ => ∀ raw, outcome = .ok (some raw) → Parses codec kind raw)
      (takeUp lists) w := by
  unfold takeUp
  refine Safe.send_bind fun w₁ reply w₂ _ hstep =>
    ⟨?_, fun value hreply => ?_, fun _ _ _ h => by cases h⟩
  · exact (kept_lindexLast hstep.2).nothingLost
  subst hreply
  cases value with
  | some held =>
    intro raw h
    cases h
    have hlast := lindexLast_eq_ok (World.run_eq_ok hstep.2.of_ok).1
    exact hstep.1 rfl held hlast.symm
  | none =>
    refine Safe.send fun w₁ reply w₂ _ hstep => ⟨nothingLost_lmove hstep.2, fun raw h => ?_⟩
    cases reply with
    | error error => cases h
    | ok value =>
      cases h
      have hmove := (World.run_eq_ok hstep.2.of_ok).1
      rcases lmoveRightLeft_cases lists.source_ne_processing w₁.db with
        ⟨moved, db', hmoved, hlast, -⟩ | ⟨-, hnone⟩
      · rw [show (Command.lmove lists.source lists.processing).script w₁.db =
          _ from hmoved] at hmove
        cases hmove
        exact hstep.1 rfl raw hlast
      · exact absurd (congrArg Prod.fst hmove) (hnone raw)

def Published (codec : Codec) (kind : Kind) (lists : QueueLists) (stream : Key) (raw : String)
    (outcome : Except Fault String) (w : World) : Prop :=
  (∀ reply, outcome = .ok reply → Placed codec kind lists stream w raw) ∧
    ∀ message, outcome ≠ .error (.poison message)

theorem keeps_guardedQueueWrite {text queue reply : String}
    (hevent : IsEventOf codec kind raw text) :
    Keeps codec kind lists (.named queue) (Published codec kind lists (.named queue) raw)
      (do let _ ← guardedQueueWrite queue .stream text
          return reply) w := by
  refine Safe.send_bind fun w₁ answer w₂ _ hstep => ⟨?_, fun value hreply => ?_, fun error _ => ?_⟩
  · exact (kept_guardedQueueWrite hstep.2).nothingLost
  · subst hreply
    have hw₂ := (World.run_eq_ok hstep.2.of_ok).2
    refine ⟨fun _ _ => .inr (.inr ⟨text, ?_, hevent⟩), nofun⟩
    rw [hw₂]
    exact List.mem_cons_self
  · refine ⟨nofun, fun message h => ?_⟩
    simp only [Except.error.injEq] at h
    split at h <;> cases h

@[simp] theorem ofParsed_ok_bind {β : Type} (value : α) (f : α → Migration β) :
    (ofParsed (.ok value) >>= f) = f value := rfl

theorem keeps_publish (htransport : settings.transport = .stream) (hparses : Parses codec kind raw)
    (stamp : Stamp) :
    Keeps codec kind lists (.named (settings.stream kind))
      (Published codec kind lists (.named (settings.stream kind)) raw)
      (publish codec settings kind raw stamp) w := by
  obtain ⟨restored, hrestored⟩ := hparses
  have hthrow : ∀ {message : String} {w : World},
      Keeps codec kind lists (.named (settings.stream kind))
        (Published codec kind lists (.named (settings.stream kind)) raw)
        (throw (.value message)) w := ⟨nofun, nofun⟩
  cases kind with
  | speech =>
    cases hjob : parseLegacySpeechItem codec raw with
    | error message =>
      simp only [restoredForm, hjob] at hrestored
      cases hrestored
    | ok job =>
      simp only [publish, hjob, ofParsed_ok_bind, publishSpeechJob, htransport]
      cases hevent : speechJobEvent job stamp with
      | none => exact hthrow
      | some event => exact keeps_guardedQueueWrite ⟨job, stamp, event, hjob, hevent, rfl⟩
  | vector =>
    cases hid : parseLegacyCompletedItem codec raw with
    | error message =>
      simp only [restoredForm, hid] at hrestored
      cases hrestored
    | ok jobId =>
      simp only [publish, hid, ofParsed_ok_bind, publishCompletedSpeechJob, htransport]
      refine Safe.attempt_bind (keeps_redis (fun _ _ _ => kept_hgetall) ?_)
      intro w₁ reply w₂ _ _ _
      generalize (reply.mapError Fault.redis) = outcome
      cases outcome <;> simp only
      · cases hevent : vectorJobEvent jobId [] stamp with
        | none => exact hthrow
        | some event => exact keeps_guardedQueueWrite ⟨jobId, _, stamp, event, hid, hevent, rfl⟩
      · rename_i fields
        cases hevent : vectorJobEvent jobId (fields.map (fun pair => (pair.1, .str pair.2)))
          stamp with
        | none => exact hthrow
        | some event => exact keeps_guardedQueueWrite ⟨jobId, _, stamp, event, hid, hevent, rfl⟩

/-- The rounds of `migrate_list`. An item leaves the processing list after its event is on the
stream. -/
theorem keeps_migrateLoop (htransport : settings.transport = .stream) (stamps : Nat → Stamp)
    (rounds : Nat) (migrated failed : Int) :
    Keeps codec kind lists (.named (settings.stream kind)) (fun _ _ => True)
      (migrateLoop lists (publish codec settings kind) stamps rounds migrated failed) w := by
  induction rounds generalizing migrated failed w with
  | zero => trivial
  | succ rounds ih =>
    refine Safe.then keeps_takeUp (fun held w₁ htaken => ?_) (fun _ _ _ => trivial)
    cases held with
    | none => trivial
    | some raw =>
      have hparses := htaken raw rfl
      refine Safe.attempt_bind ((keeps_publish htransport hparses _).mono ?_)
      rintro (fault | reply) w₂ ⟨hplaced, hpoison⟩
      · cases fault
        case poison message => exact absurd rfl (hpoison message)
        all_goals exact keeps_throw _
      · refine Safe.send_bind fun w₃ reply w₄ he hstep =>
          ⟨?_, fun removed _ => ?_, fun _ _ => trivial⟩
        · exact nothingLost_lrem hstep.2 .refl ((hplaced _ rfl).elsewhere he)
        · show Keeps _ _ _ _ _ (if removed < 1 then _ else _) w₄
          split
          · exact keeps_throw _
          · exact ih _ _

theorem keeps_migrateList (htransport : settings.transport = .stream) (stamps : Nat → Stamp)
    (execute : Bool) (limit : Int) :
    Keeps codec kind lists (.named (settings.stream kind)) (fun _ _ => True)
      (migrateList lists (publish codec settings kind) stamps execute limit) w := by
  refine keeps_bind_trivial keeps_llen fun sourceDepth w => ?_
  refine keeps_bind_trivial keeps_llen fun processingDepth w => ?_
  refine keeps_bind_trivial keeps_llen fun failedDepth w => ?_
  cases execute with
  | false => trivial
  | true =>
    refine keeps_bind_trivial (keeps_migrateLoop htransport stamps _ 0 0) fun counts w => ?_
    refine keeps_bind_trivial keeps_llen fun _ w => ?_
    refine keeps_bind_trivial keeps_llen fun _ w => ?_
    refine keeps_bind_trivial keeps_llen fun _ w => ?_
    refine keeps_bind_trivial keeps_llen fun _ w => ?_
    exact keeps_bind_trivial keeps_llen fun _ w => trivial

theorem keeps_enqueueExportedJob (jobId payload : String) :
    Keeps codec kind lists stream
      (fun outcome w => ∀ n, outcome = .ok n → Placed codec kind lists stream w payload)
      (enqueueExportedJob lists.source jobId payload) w := by
  refine Safe.send fun w₁ reply w₂ _ hstep =>
    ⟨(kept_enqueueOnce hstep.2).nothingLost, fun n h => ?_⟩
  cases reply with
  | error error => cases h
  | ok value =>
    have hscript := (World.run_eq_ok hstep.2.of_ok).1
    rcases enqueueOnce_cases lists.name jobId payload w₁.db with
      ⟨-, hledger⟩ | ⟨db', hpush, -, hlist, -⟩ | ⟨error, herror⟩
    · exact (hstep.1 rfl hledger).kept (kept_enqueueOnce hstep.2)
    · rw [show (Command.enqueueOnce lists.source jobId payload).script w₁.db =
        _ from hpush] at hscript
      cases hscript
      left
      rw [show w₂.db.list lists.source = _ from hlist]
      exact List.mem_cons_self
    · rw [show (Command.enqueueOnce lists.source jobId payload).script w₁.db =
        _ from herror] at hscript
      cases hscript

theorem keeps_restoreLoop (limit : Int) (fuel : Nat) (restored : Int) :
    Keeps codec kind lists stream (fun _ _ => True)
      (restoreLoop codec kind lists limit fuel restored) w := by
  induction fuel generalizing restored w with
  | zero => trivial
  | succ fuel ih =>
    unfold restoreLoop
    split
    · refine Safe.send_bind fun w₁ reply w₂ _ hstep =>
        ⟨?_, fun held hreply => ?_, fun _ _ => trivial⟩
      · exact (kept_lindexLast hstep.2).nothingLost
      subst hreply
      have hlast := lindexLast_eq_ok (World.run_eq_ok hstep.2.of_ok).1
      cases held with
      | none => trivial
      | some raw =>
        obtain ⟨⟨jobId, payload⟩, hrestored⟩ := hstep.1 rfl raw hlast.symm
        simp only [hrestored]
        refine Safe.then (keeps_enqueueExportedJob jobId payload) (fun n w₃ hplaced => ?_)
          (fun _ _ _ => trivial)
        refine Safe.send_bind fun w₄ reply w₅ he hstep =>
          ⟨?_, fun removed _ => ?_, fun _ _ => trivial⟩
        · exact nothingLost_lrem hstep.2 (.single ⟨jobId, hrestored⟩) ((hplaced _ rfl).elsewhere he)
        · show Keeps _ _ _ _ _ (if removed < 1 then _ else _) w₅
          split
          · exact keeps_throw _
          · exact ih _
    · trivial

theorem keeps_session (htransport : settings.transport = .stream)
    {prog : Program (Remote Error Command) α}
    (h : MigrationSession codec settings kind lists α prog) :
    Program.Safe
      (Remote.semantics fun command w reply w' =>
        Sound codec kind lists (.named (settings.stream kind)) command w ∧
          Performed command w reply w')
      (Elsewhere lists)
      (fun _ w w' => NothingLost codec kind lists (.named (settings.stream kind)) w w')
      (fun _ _ => True) prog w := by
  cases h with
  | migrate stamps execute limit => exact keeps_migrateList htransport stamps execute limit
  | restore limit fuel =>
    exact keeps_bind_trivial (keeps_restoreLoop limit fuel 0) fun _ _ =>
      keeps_bind_trivial keeps_llen fun _ _ => trivial

def noJson : Codec where
  loads _ := .notJson
  dumps _ := ""
  validate _ := none
  dump event := event.eventType

def sampleSettings : MigrationSettings where
  transport := .stream
  speechStream := "speech.stream"
  vectorStream := "vector.stream"
  retryStream := "retry.stream"
  speechGroup := "speech"
  vectorGroup := "vector"
  reclaimMinIdleMs := 90000

def sampleDb (lists : QueueLists) (item : String) : Db Key :=
  ⟨0, fun key => if key = lists.source then some ⟨.list [item], none⟩ else none⟩

end AiBuddy.Queue.LegacyMigration
