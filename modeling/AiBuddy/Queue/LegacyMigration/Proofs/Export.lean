import AiBuddy.Queue.LegacyMigration.Proofs.ScriptSpecs

/-!
# Settled entries have their job on a list

While the lock is up the ledger holds only ids of jobs that were pushed to the list
of their kind, so a pass that finds an id in the ledger may acknowledge the entry.
-/

namespace AiBuddy.Queue.LegacyMigration

open Redis Program

variable {codec : Codec} {settings : MigrationSettings} {lists : Kind → QueueLists}
  {kindOf : String → Kind} {blank : String} {w w' w₁ w₂ w₃ : World}

/-! ## Commands that only move streams or lists -/

def Command.Plain {α : Type} : Command α → Prop
  | .llen _ | .lindexLast _ | .sismember _ _ | .xpendingRange _ _ _ | .xrangeOne _ _
  | .xrange _ _ _ | .xinfoGroup _ _ => True
  | .lrem key _ | .lpush key _ | .xgroupCreate key _ | .xautoclaim key _ _ _ _
  | .xreadgroup key _ _ _ => ∃ name, key = .named name
  | _ => False

theorem Command.Plain.frames {α : Type} {command : Command α} (h : command.Plain) {key : Key}
    (hkey : ∀ name, key ≠ .named name) : command.script.Frames key := by
  cases command <;> try exact h.elim
  case llen => exact (reads_llen _).frames key
  case lindexLast => exact (reads_lindexLast _).frames key
  case sismember => exact (reads_sismember _ _).frames key
  case xpendingRange => exact (reads_xpendingRange _ _ _).frames key
  case xrangeOne => exact (reads_xrangeOne _ _).frames key
  case xrange => exact (reads_xrange _ _ _).frames key
  case xinfoGroup => exact (reads_xinfoGroup _ _).frames key
  all_goals obtain ⟨name, rfl⟩ := h
  case lrem => exact frames_lrem (hkey name) _
  case lpush => exact frames_lpush (hkey name) _
  case xgroupCreate => exact frames_xgroupCreate (hkey name) _
  case xautoclaim => exact frames_xautoclaim (hkey name) _ _ _ _
  case xreadgroup => exact frames_xreadgroup (hkey name) _ _ _

theorem Command.Plain.forward {α : Type} {command : Command α} (h : command.Plain)
    (name : String) : command.script.Forward (.named name) := by
  cases command <;> try exact h.elim
  case llen => exact ((reads_llen _).frames _).forward
  case lindexLast => exact ((reads_lindexLast _).frames _).forward
  case sismember => exact ((reads_sismember _ _).frames _).forward
  case xpendingRange => exact ((reads_xpendingRange _ _ _).frames _).forward
  case xrangeOne => exact ((reads_xrangeOne _ _).frames _).forward
  case xrange => exact ((reads_xrange _ _ _).frames _).forward
  case xinfoGroup => exact ((reads_xinfoGroup _ _).frames _).forward
  case lrem => exact forward_of_named name (fun _ h => frames_lrem h _) (forward_lrem _ _)
  case lpush => exact forward_of_named name (fun _ h => frames_lpush h _) (forward_lpush _ _)
  case xgroupCreate =>
    exact forward_of_named name (fun _ h => frames_xgroupCreate h _) (forward_xgroupCreate _ _)
  case xautoclaim =>
    exact forward_of_named name (fun _ h => frames_xautoclaim h _ _ _ _)
      (forward_xautoclaim _ _ _ _ _)
  case xreadgroup =>
    exact forward_of_named name (fun _ h => frames_xreadgroup h _ _ _) (forward_xreadgroup _ _ _ _)

theorem Command.Plain.record {α : Type} {command : Command α} (h : command.Plain) (w : World)
    (reply : α) : w.record command reply = w := by
  cases command <;> first | exact h.elim | rfl

theorem Outside.refl (w : World) : Outside w w :=
  ⟨rfl, rfl, rfl, rfl, fun _ hordered => ⟨.refl _, hordered⟩⟩

theorem Outside.trans (h₁ : Outside w w₁) (h₂ : Outside w₁ w₂) : Outside w w₂ where
  lock := h₂.lock.trans h₁.lock
  ledger := h₂.ledger.trans h₁.ledger
  pushed := h₂.pushed.trans h₁.pushed
  settled := h₂.settled.trans h₁.settled
  streams name hordered :=
    have hfirst := h₁.streams name hordered
    have hsecond := h₂.streams name hfirst.2
    ⟨hfirst.1.trans hsecond.1, hsecond.2⟩

theorem outside_of_plain {α : Type} {command : Command α} {reply : Except Error α}
    (hplain : command.Plain) (h : Performed command w reply w') : Outside w w' := by
  rcases h.state with rfl | rfl
  · exact Outside.refl _
  · have hdb := World.run_db command w
    have hrecord : (World.run command w).2.pushed = w.pushed ∧
        (World.run command w).2.settled = w.settled := by
      unfold World.run
      rcases command.script w.db with ⟨_ | value, db⟩
      · exact ⟨rfl, rfl⟩
      · show (w.record command value).pushed = w.pushed ∧ (w.record command value).settled =
          w.settled
        rw [hplain.record]
        exact ⟨rfl, rfl⟩
    refine ⟨?_, ?_, hrecord.1, hrecord.2, fun name hordered => ?_⟩
    · rw [hdb]
      exact hplain.frames (by simp) w.db
    · rw [hdb]
      exact hplain.frames (by simp) w.db
    · rw [hdb]
      exact hplain.forward name w.db hordered

/-! ## The invariant -/

structure ExportInv (codec : Codec) (lists : Kind → QueueLists) (kindOf : String → Kind)
    (blank : String) (w : World) : Prop where
  ledger : ∀ id ∈ w.db.set .exportLedger, JobPushed lists w (kindOf id) id blank
  unlocked : w.db.live .exportLock = none → w.db.live .exportLedger = none
  ordered : ∀ name, (w.db.stream (.named name)).Ordered
  settled : SettledPushed codec lists w

structure InPass (codec : Codec) (lists : Kind → QueueLists) (kindOf : String → Kind)
    (blank : String) (w : World) : Prop extends ExportInv codec lists kindOf blank w where
  locked : w.db.live .exportLock ≠ none

structure Onward (w w' : World) : Prop where
  pushed : ∀ push ∈ w.pushed, push ∈ w'.pushed
  streams : ∀ name, (w.db.stream (.named name)).Follows (w'.db.stream (.named name))

theorem Onward.refl (w : World) : Onward w w := ⟨fun _ h => h, fun _ => .refl _⟩

theorem Onward.trans (h₁ : Onward w w₁) (h₂ : Onward w₁ w₂) : Onward w w₂ :=
  ⟨fun push hmem => h₂.pushed push (h₁.pushed push hmem),
    fun name => (h₁.streams name).trans (h₂.streams name)⟩

variable {kind : Kind} {jobId item : String}

theorem JobPushed.onward (h : JobPushed lists w kind jobId item) (hon : Onward w w') :
    JobPushed lists w' kind jobId item :=
  let ⟨payload, hmem, hblank⟩ := h
  ⟨payload, hon.pushed _ hmem, hblank⟩

theorem SettledPushed.onward (h : SettledPushed codec lists w) (hon : Onward w w')
    (hsettled : w'.settled = w.settled) : SettledPushed codec lists w' := by
  intro fields hmem
  rw [hsettled] at hmem
  obtain ⟨kind, jobId, item, hitem, hpushed⟩ := h fields hmem
  exact ⟨kind, jobId, item, hitem, hpushed.onward hon⟩

theorem Outside.onward (h : Outside w w') (hinv : ExportInv codec lists kindOf blank w) :
    Onward w w' :=
  ⟨fun push hmem => by rwa [h.pushed], fun name => (h.streams name (hinv.ordered name)).1⟩

theorem ExportInv.outside (hinv : ExportInv codec lists kindOf blank w) (h : Outside w w') :
    ExportInv codec lists kindOf blank w' where
  ledger id hmem := by
    rw [Db.set_congr h.ledger] at hmem
    exact (hinv.ledger id hmem).onward (h.onward hinv)
  unlocked hlock := by
    rw [h.ledger]
    exact hinv.unlocked (by rwa [h.lock] at hlock)
  ordered name := (h.streams name (hinv.ordered name)).2
  settled := hinv.settled.onward (h.onward hinv) h.settled

theorem InPass.outside (hin : InPass codec lists kindOf blank w) (h : Outside w w') :
    InPass codec lists kindOf blank w' :=
  ⟨hin.toExportInv.outside h, by rw [h.lock]; exact hin.locked⟩

structure Known (stream : String) (id : Nat) (fields : Fields) (w : World) : Prop where
  le_lastId : id ≤ (w.db.stream (.named stream)).lastId
  entry : ∀ found, (w.db.stream (.named stream)).entryAt id = some found → found = fields

variable {stream : String} {id : Nat} {fields : Fields}

theorem Known.onward (h : Known stream id fields w) (hon : Onward w w') :
    Known stream id fields w' := by
  have hfollows := hon.streams stream
  refine ⟨Nat.le_trans h.le_lastId hfollows.lastId_le, fun found hfound => ?_⟩
  rcases hfollows.entry id found hfound with hold | hnew
  · exact h.entry found hold
  · have := h.le_lastId
    omega

theorem known_of_mem (hordered : (w.db.stream (.named stream)).Ordered)
    (hmem : (id, fields) ∈ (w.db.stream (.named stream)).entries) : Known stream id fields w := by
  refine ⟨hordered.le_lastId _ hmem, fun found hfound => ?_⟩
  rw [hordered.entryAt_of_mem hmem] at hfound
  exact (Option.some.inj hfound).symm

/-! ## Rules -/

/-- A program of a pass: wherever it is stopped the invariant holds, and `know` holds of what it
returns. -/
abbrev Passes {α : Type} (codec : Codec) (lists : Kind → QueueLists) (kindOf : String → Kind)
    (blank : String) (know : α → World → Prop) (prog : Migration α) (w : World) : Prop :=
  Program.Safe
    (Remote.semantics fun command w reply w' =>
      Assigned codec lists kindOf blank command w ∧ Performed command w reply w')
    Outside (fun _ _ w' => ExportInv codec lists kindOf blank w')
    (fun outcome w' => Onward w w' ∧ InPass codec lists kindOf blank w' ∧
      ∀ value, outcome = .ok value → know value w')
    prog.run w

def any {α : Type} (_ : α) (_ : World) : Prop := True

variable {α β : Type} {know : α → World → Prop} {know' : β → World → Prop}

theorem passes_pure (hin : InPass codec lists kindOf blank w) {value : α} (h : know value w) :
    Passes codec lists kindOf blank know (pure value) w :=
  ⟨.refl w, hin, fun _ hvalue => by cases hvalue; exact h⟩

theorem passes_throw (hin : InPass codec lists kindOf blank w) (fault : Fault) :
    Passes codec lists kindOf blank know (throw fault : Migration α) w :=
  ⟨.refl w, hin, nofun⟩

theorem passes_bind {prog : Migration α} {f : α → Migration β}
    (h : Passes codec lists kindOf blank know prog w)
    (hf : ∀ value w', Onward w w' → InPass codec lists kindOf blank w' → know value w' →
      Passes codec lists kindOf blank know' (f value) w') :
    Passes codec lists kindOf blank know' (prog >>= f) w := by
  refine Safe.then h (fun value w₁ hmiddle => ?_) (fun fault w₁ hmiddle => ?_)
  · obtain ⟨hon, hin, hknow⟩ := hmiddle
    refine (hf value w₁ hon hin (hknow value rfl)).mono fun outcome w₂ hpost => ?_
    exact ⟨hon.trans hpost.1, hpost.2⟩
  · exact ⟨hmiddle.1, hmiddle.2.1, nofun⟩

theorem passes_attempt_bind {prog : Migration α} {f : Except Fault α → Migration β}
    (h : Passes codec lists kindOf blank know prog w)
    (hf : ∀ outcome w', Onward w w' → InPass codec lists kindOf blank w' →
      (∀ value, outcome = .ok value → know value w') →
      Passes codec lists kindOf blank know' (f outcome) w') :
    Passes codec lists kindOf blank know' (attempt prog >>= f) w := by
  refine Safe.attempt_bind (h.mono fun outcome w₁ hmiddle => ?_)
  obtain ⟨hon, hin, hknow⟩ := hmiddle
  refine (hf outcome w₁ hon hin hknow).mono fun outcome w₂ hpost => ?_
  exact ⟨hon.trans hpost.1, hpost.2⟩

theorem passes_redis {command : Command α} (hin : InPass codec lists kindOf blank w)
    (h : ∀ w₁ reply w₂, Onward w w₁ → InPass codec lists kindOf blank w₁ →
      Assigned codec lists kindOf blank command w₁ → Performed command w₁ reply w₂ →
      Onward w₁ w₂ ∧ InPass codec lists kindOf blank w₂ ∧
        ∀ value, reply = .ok value → know value w₂) :
    Passes codec lists kindOf blank know (redis command) w := by
  refine Safe.send fun w₁ reply w₂ houtside hstep => ?_
  have hon := houtside.onward hin.toExportInv
  obtain ⟨hon', hin', hknow⟩ := h w₁ reply w₂ hon (hin.outside houtside) hstep.1 hstep.2
  refine ⟨hin'.toExportInv, hon.trans hon', hin', fun value hvalue => hknow value ?_⟩
  cases reply <;> cases hvalue
  rfl

theorem passes_plain {command : Command α} (hin : InPass codec lists kindOf blank w)
    (hplain : command.Plain)
    (hknow : ∀ w₁ w₂ value, InPass codec lists kindOf blank w₁ → Onward w₁ w₂ →
      command.script w₁.db = (.ok value, w₂.db) → know value w₂) :
    Passes codec lists kindOf blank know (redis command) w := by
  refine passes_redis hin fun w₁ reply w₂ _ hin₁ _ hperformed => ?_
  have houtside := outside_of_plain hplain hperformed
  have hon := houtside.onward hin₁.toExportInv
  refine ⟨hon, hin₁.outside houtside, fun value hvalue => ?_⟩
  subst hvalue
  exact hknow w₁ w₂ value hin₁ hon (World.run_eq_ok hperformed.of_ok).1

theorem passes_any {command : Command α} (hin : InPass codec lists kindOf blank w)
    (hplain : command.Plain) : Passes codec lists kindOf blank any (redis command) w :=
  passes_plain hin hplain fun _ _ _ _ _ _ => trivial

/-! ## Commands with an effect -/

theorem passes_settle {command : Command Int} (hin : InPass codec lists kindOf blank w)
    (hrecord : ∀ (w : World) (reply : Int), w.record command reply =
      { w with settled := ((w.db.stream (.named stream)).entryAt id).toList ++ w.settled })
    (hframes : ∀ key, key ≠ .named stream → command.script.Frames key)
    (hforward : command.script.Forward (.named stream))
    (hjob : ∀ w₁ found, Onward w w₁ → InPass codec lists kindOf blank w₁ →
      Assigned codec lists kindOf blank command w₁ → (w₁.db.stream (.named stream)).entryAt id =
      some found → ∃ kind jobId item, exportItem codec kind found = .ok (jobId, item) ∧
      JobPushed lists w₁ kind jobId item) :
    Passes codec lists kindOf blank any (redis command) w := by
  refine passes_redis hin fun w₁ reply w₂ hon₁ hin₁ hassigned hperformed => ?_
  rcases hperformed.state with rfl | rfl
  · exact ⟨.refl _, hin₁, fun _ _ => trivial⟩
  · have hdb := World.run_db command w₁
    have hrecorded : (World.run command w₁).2.pushed = w₁.pushed ∧
        ∀ fields ∈ (World.run command w₁).2.settled, fields ∈ w₁.settled ∨
          (w₁.db.stream (.named stream)).entryAt id = some fields := by
      unfold World.run
      rcases command.script w₁.db with ⟨_ | value, db⟩
      · exact ⟨rfl, fun _ hmem => .inl hmem⟩
      · refine ⟨by simp only [hrecord], fun fields hmem => ?_⟩
        simp only [hrecord, List.mem_append, Option.mem_toList] at hmem
        exact hmem.symm
    have hstream : ∀ name,
        (w₁.db.stream (.named name)).Follows ((World.run command w₁).2.db.stream (.named name)) ∧
          ((World.run command w₁).2.db.stream (.named name)).Ordered := fun name => by
      rw [hdb]
      exact forward_of_named name hframes hforward w₁.db (hin₁.ordered name)
    have hon : Onward w₁ (World.run command w₁).2 :=
      ⟨fun push hmem => by rwa [hrecorded.1], fun name => (hstream name).1⟩
    have hsame : ∀ key, key ≠ .named stream →
        (World.run command w₁).2.db.live key = w₁.db.live key := fun key hkey => by
      rw [hdb]
      exact hframes key hkey w₁.db
    have hlock := hsame .exportLock (by simp)
    have hledger := hsame .exportLedger (by simp)
    refine ⟨hon, ⟨⟨fun jobId hmem => ?_, fun hnone => ?_, fun name => (hstream name).2,
      fun fields hmem => ?_⟩, ?_⟩, fun _ _ => trivial⟩
    · rw [Db.set_congr hledger] at hmem
      exact (hin₁.ledger jobId hmem).onward hon
    · rw [hlock] at hnone
      exact absurd hnone hin₁.locked
    · rcases hrecorded.2 fields hmem with hold | hnew
      · obtain ⟨kind, jobId, item, hitem, hpushed⟩ := hin₁.settled fields hold
        exact ⟨kind, jobId, item, hitem, hpushed.onward hon⟩
      · obtain ⟨kind, jobId, item, hitem, hpushed⟩ := hjob w₁ fields hon₁ hin₁ hassigned hnew
        exact ⟨kind, jobId, item, hitem, hpushed.onward hon⟩
    · rw [hlock]
      exact hin₁.locked

variable {group : String}

theorem passes_xack (hin : InPass codec lists kindOf blank w)
    (hjob : ∀ w₁ found, Onward w w₁ → InPass codec lists kindOf blank w₁ →
      Assigned codec lists kindOf blank (.xack (.named stream) group id) w₁ →
      (w₁.db.stream (.named stream)).entryAt id = some found →
      ∃ kind jobId item, exportItem codec kind found = .ok (jobId, item) ∧
      JobPushed lists w₁ kind jobId item) :
    Passes codec lists kindOf blank any (redis (.xack (.named stream) group id)) w :=
  passes_settle hin (fun _ _ => rfl) (fun _ hkey => frames_xack hkey _ _) (forward_xack _ _ _) hjob

theorem job_of_known (hknown : Known stream id fields w)
    (hitem : exportItem codec kind fields = .ok (jobId, item))
    (hpushed : JobPushed lists w kind jobId item) :
    ∀ w₁ found, Onward w w₁ → (w₁.db.stream (.named stream)).entryAt id = some found →
      ∃ kind jobId item, exportItem codec kind found = .ok (jobId, item) ∧
        JobPushed lists w₁ kind jobId item := by
  intro w₁ found hon hfound
  obtain rfl := (hknown.onward hon).entry found hfound
  exact ⟨kind, jobId, item, hitem, hpushed.onward hon⟩

theorem run_enqueueOnce {destination jobId payload : String} {w : World} :
    ((World.run (.enqueueOnce (.named destination) jobId payload) w).2 = w ∧
        ∀ value, (World.run (.enqueueOnce (.named destination) jobId payload) w).1 = .ok value →
          jobId ∈ w.db.set .exportLedger) ∨
      ∃ db', World.run (.enqueueOnce (.named destination) jobId payload) w =
          (.ok 1, { w with db := db', pushed :=
            ⟨.named destination, jobId, payload⟩ :: w.pushed }) ∧
        (∀ key, key ≠ .named destination → key ≠ .exportLedger → db'.live key = w.db.live key) ∧
        (∀ id, id ∈ db'.set .exportLedger ↔ id = jobId ∨ id ∈ w.db.set .exportLedger) ∧
        ∀ name, (w.db.stream (.named name)).Ordered →
          (w.db.stream (.named name)).Follows (db'.stream (.named name)) ∧
            (db'.stream (.named name)).Ordered := by
  have hscript : (Command.enqueueOnce (.named destination) jobId payload).script w.db =
    LegacyMigration.enqueueOnce (.named destination) jobId payload w.db := rfl
  unfold World.run
  rw [hscript]
  rcases enqueueOnce_cases destination jobId payload w.db with
    ⟨hok, hledger⟩ | ⟨db', hok, -, -, hframe, hset, hstreams⟩ | ⟨error, herror⟩
  · rw [hok]
    exact .inl ⟨rfl, fun _ _ => hledger⟩
  · rw [hok]
    exact .inr ⟨db', rfl, hframe, hset, hstreams⟩
  · rw [herror]
    exact .inl ⟨rfl, nofun⟩

theorem passes_enqueueExportedJob (kind : Kind) (jobId item : String)
    (hin : InPass codec lists kindOf blank w) :
    Passes codec lists kindOf blank (fun _ w => JobPushed lists w kind jobId item)
      (enqueueExportedJob (lists kind).source jobId item) w := by
  refine passes_redis hin fun w₁ reply w₂ _ hin₁ hassigned hperformed => ?_
  obtain ⟨hdestination, hblank⟩ := hassigned
  rcases run_enqueueOnce with
    ⟨hsame, hledger⟩ | ⟨db', hrun, hframe, hset, hstreams⟩
  · obtain rfl : w₂ = w₁ := by
      rcases hperformed.state with h | h
      · exact h
      · exact h.trans hsame
    refine ⟨.refl _, hin₁, fun value hvalue => ?_⟩
    subst hvalue
    obtain ⟨payload, hmem, hpayload⟩ :=
      hin₁.ledger jobId (hledger value (congrArg Prod.fst hperformed.of_ok))
    rw [← hdestination] at hmem
    exact ⟨payload, hmem, fun h => (hpayload h).trans (hblank h).symm⟩
  · have hcases : w₂ = w₁ ∧ (∀ value, reply ≠ .ok value) ∨ w₂ = { w₁ with
        db := db', pushed := ⟨(lists kind).source, jobId, item⟩ :: w₁.pushed } := by
      cases reply with
      | ok value => exact .inr (congrArg Prod.snd (hperformed.of_ok.symm.trans hrun))
      | error error =>
        refine hperformed.state.imp (fun h => ⟨h, nofun⟩) (fun h => ?_)
        exact h.trans (congrArg Prod.snd hrun)
    rcases hcases with ⟨rfl, hnone⟩ | rfl
    · exact ⟨.refl _, hin₁, fun value hvalue => absurd hvalue (hnone value)⟩
    · have hon : Onward w₁ { w₁ with
          db := db', pushed := ⟨(lists kind).source, jobId, item⟩ :: w₁.pushed } :=
        ⟨fun _ hmem => List.mem_cons_of_mem _ hmem, fun name =>
          (hstreams name (hin₁.ordered name)).1⟩
      have hlock : db'.live .exportLock = w₁.db.live .exportLock :=
        hframe .exportLock (by simp) (by simp)
      refine ⟨hon, ⟨⟨fun id hmem => ?_, fun hnone => ?_, fun name => ?_, ?_⟩, ?_⟩, fun _ _ => ?_⟩
      · rcases (hset id).mp hmem with rfl | hold
        · exact ⟨item, by rw [← hdestination]; exact List.mem_cons_self, hblank⟩
        · exact (hin₁.ledger id hold).onward hon
      · exact absurd (hlock.symm.trans hnone) hin₁.locked
      · exact (hstreams name (hin₁.ordered name)).2
      · exact hin₁.settled.onward hon rfl
      · exact fun hnone => hin₁.locked (hlock.symm.trans hnone)
      · exact ⟨item, List.mem_cons_self, fun _ => rfl⟩

/-! ## The coroutines -/

def KnownAll (stream : String) (entries : List (Nat × Fields)) (w : World) : Prop :=
  ∀ entry ∈ entries, Known stream entry.1 entry.2 w

theorem KnownAll.onward {entries : List (Nat × Fields)} (h : KnownAll stream entries w)
    (hon : Onward w w') : KnownAll stream entries w' :=
  fun entry hmem => (h entry hmem).onward hon

theorem knownAll_of_mem {entries : List (Nat × Fields)} (hin : InPass codec lists kindOf blank w)
    (h : ∀ entry ∈ entries, entry ∈ (w.db.stream (.named stream)).entries) :
    KnownAll stream entries w :=
  fun entry hmem => known_of_mem (hin.ordered stream) (h entry hmem)

theorem passes_restoreLoop (kind : Kind) (limit : Int) (fuel : Nat) (restored : Int)
    (hin : InPass codec lists kindOf blank w) :
    Passes codec lists kindOf blank any
      (restoreLoop codec kind (lists kind) limit fuel restored) w := by
  induction fuel generalizing restored w with
  | zero => exact passes_throw hin _
  | succ fuel ih =>
    unfold restoreLoop
    split
    · refine passes_bind (passes_any hin trivial) fun held w₁ _ hin₁ _ => ?_
      cases held with
      | none => exact passes_pure hin₁ trivial
      | some raw =>
        rcases hform : restoredForm codec kind raw with message | ⟨jobId, payload⟩ <;>
          simp only [hform]
        · refine passes_bind (passes_any hin₁ ⟨_, rfl⟩) fun _ w₂ _ hin₂ _ => ?_
          refine passes_bind (passes_any hin₂ ⟨_, rfl⟩) fun _ w₃ _ hin₃ _ => ?_
          exact ih restored hin₃
        · refine passes_bind (passes_enqueueExportedJob kind jobId payload hin₁) fun _ w₂ _ hin₂
            _ => ?_
          refine passes_bind (passes_any hin₂ ⟨_, rfl⟩) fun removed w₃ _ hin₃ _ => ?_
          split
          · exact passes_throw hin₃ _
          · exact ih _ hin₃
    · exact passes_pure hin trivial

variable {limit : Int} {fuel : Nat}

theorem passes_restoreMigratingList {kind : Kind} (hin : InPass codec lists kindOf blank w) :
    Passes codec lists kindOf blank any
      (restoreMigratingList codec kind (lists kind) limit fuel) w :=
  passes_bind (passes_restoreLoop kind limit fuel 0 hin) fun _ _ _ hin₁ _ =>
    passes_bind (passes_any hin₁ trivial) fun _ _ _ hin₂ _ => passes_pure hin₂ trivial

theorem passes_ensureGroup {stream : String} (hin : InPass codec lists kindOf blank w) :
    Passes codec lists kindOf blank any (ensureGroup (.named stream) group) w := by
  refine passes_attempt_bind (passes_any hin ⟨_, rfl⟩) fun outcome w₁ _ hin₁ _ => ?_
  split
  · exact passes_pure hin₁ trivial
  · exact passes_throw hin₁ _
  · exact passes_pure hin₁ trivial

theorem passes_pendingCount {stream : String} (hin : InPass codec lists kindOf blank w) :
    Passes codec lists kindOf blank any (pendingCount (.named stream) group) w := by
  refine passes_attempt_bind (passes_any hin trivial) fun outcome w₁ _ hin₁ _ => ?_
  split
  · exact passes_pure hin₁ trivial
  · exact passes_pure hin₁ trivial
  · exact passes_throw hin₁ _
  · exact passes_pure hin₁ trivial

theorem passes_xrangeOne (stream : String) (id : Nat) (hin : InPass codec lists kindOf blank w) :
    Passes codec lists kindOf blank
      (fun fields w => ∀ found, fields = some found → Known stream id found w)
      (redis (.xrangeOne (.named stream) id)) w := by
  refine passes_plain hin trivial fun w₁ w₂ fields hin₁ hon hreply found hfound => ?_
  have hentry := xrangeOne_eq_ok hreply
  rw [hfound] at hentry
  exact (known_of_mem (hin₁.ordered stream) (Stream.mem_of_entryAt hentry.symm)).onward hon

variable {count : Nat}

theorem passes_xrange {stream : String} {after : Nat} (hin : InPass codec lists kindOf blank w) :
    Passes codec lists kindOf blank (KnownAll stream)
      (redis (.xrange (.named stream) after count)) w :=
  passes_plain hin trivial fun _ _ _ hin₁ hon hreply =>
    (knownAll_of_mem hin₁ (mem_of_xrange hreply)).onward hon

theorem passes_xautoclaim {stream consumer : String} {minIdle : Nat}
    (hin : InPass codec lists kindOf blank w) :
    Passes codec lists kindOf blank (KnownAll stream)
      (redis (.xautoclaim (.named stream) group consumer minIdle count)) w :=
  passes_plain hin ⟨_, rfl⟩ fun _ _ _ hin₁ hon hreply =>
    (knownAll_of_mem hin₁ (mem_of_xautoclaim hreply)).onward hon

theorem passes_xreadgroup {stream consumer : String} (hin : InPass codec lists kindOf blank w) :
    Passes codec lists kindOf blank (KnownAll stream)
      (redis (.xreadgroup (.named stream) group consumer count)) w :=
  passes_plain hin ⟨_, rfl⟩ fun _ _ _ hin₁ hon hreply =>
    (knownAll_of_mem hin₁ (mem_of_xreadgroup hreply)).onward hon

theorem passes_sismember (jobId : String) (hin : InPass codec lists kindOf blank w) :
    Passes codec lists kindOf blank
      (fun n w => n ≠ 0 → JobPushed lists w (kindOf jobId) jobId blank)
      (redis (.sismember .exportLedger jobId)) w := by
  refine passes_plain hin trivial fun w₁ w₂ n hin₁ hon hreply hn => ?_
  have hmember := sismember_eq_ok hreply
  by_cases hledger : jobId ∈ w₁.db.set .exportLedger
  · exact (hin₁.ledger jobId hledger).onward hon
  · rw [if_neg hledger] at hmember
    exact absurd hmember hn

theorem passes_ackLedgered (kind : Kind) (stream group : String) (rows : List PendingRow)
    (exported : Int) (hin : InPass codec lists kindOf blank w) :
    Passes codec lists kindOf blank any
      (ackLedgered codec kind (.named stream) group rows exported) w := by
  induction rows generalizing exported w with
  | nil => exact passes_pure hin trivial
  | cons row rows ih =>
    unfold ackLedgered
    refine passes_bind (passes_xrangeOne stream row.id hin) fun fields w₁ _ hin₁ hknown => ?_
    cases fields with
    | none => exact ih exported hin₁
    | some fields =>
      have hknown := hknown fields rfl
      simp only
      split
      · exact ih exported hin₁
      · exact ih exported hin₁
      · exact passes_throw hin₁ _
      · rename_i jobId item hitem
        refine passes_bind (passes_sismember jobId hin₁) fun n w₂ hon₂ hin₂ hledger => ?_
        split
        · exact ih exported hin₂
        · rename_i hn
          refine passes_bind (passes_xack hin₂ ?_) fun _ w₃ _ hin₃ _ => ih _ hin₃
          intro w₃ found hon₃ _ hassigned hfound
          obtain rfl := ((hknown.onward hon₂).onward hon₃).entry found hfound
          obtain ⟨hkind, hblank⟩ := hassigned found hfound kind jobId item hitem
          obtain ⟨payload, hmem, hpayload⟩ := (hledger hn).onward hon₃
          rw [hkind] at hmem
          exact ⟨kind, jobId, item, hitem, payload, hmem,
            fun h => (hpayload h).trans (hblank h).symm⟩

theorem passes_exportEntries (kind : Kind) (stream group : String) (limit : Int)
    (entries : List (Nat × Fields)) (exported : Int) (hin : InPass codec lists kindOf blank w)
    (hknown : KnownAll stream entries w) :
    Passes codec lists kindOf blank any
      (exportEntries codec kind (.named stream) group (lists kind).source limit entries exported)
      w := by
  induction entries generalizing exported w with
  | nil => exact passes_pure hin trivial
  | cons entry entries ih =>
    obtain ⟨id, fields⟩ := entry
    unfold exportEntries
    split
    · exact passes_pure hin trivial
    · rcases hitem : exportItem codec kind fields with fault | ⟨jobId, item⟩ <;> simp only
      · exact passes_throw hin _
      · refine passes_bind (passes_enqueueExportedJob kind jobId item hin)
          fun _ w₁ hon₁ hin₁ hpushed => ?_
        have hentry := (hknown _ List.mem_cons_self).onward hon₁
        refine passes_bind (passes_xack hin₁ fun w₂ found hon₂ _ _ =>
          job_of_known hentry hitem hpushed w₂ found hon₂) fun _ w₂ hon₂ hin₂ _ => ?_
        exact ih _ hin₂ (fun entry hmem =>
          ((hknown entry (List.mem_cons_of_mem _ hmem)).onward hon₁).onward hon₂)

theorem passes_nextBatch (minIdle : Nat) (stream group : String) (count : Nat)
    (hin : InPass codec lists kindOf blank w) :
    Passes codec lists kindOf blank (KnownAll stream)
      (nextBatch minIdle (.named stream) group count) w := by
  refine passes_bind (passes_xautoclaim hin) fun claimed w₁ _ hin₁ hclaimed => ?_
  split
  · exact passes_xreadgroup hin₁
  · exact passes_pure hin₁ hclaimed

theorem passes_exportLoop (kind : Kind) (minIdle : Nat) (stream group : String) (limit : Int)
    (fuel : Nat) (exported : Int) (hin : InPass codec lists kindOf blank w) :
    Passes codec lists kindOf blank any
      (exportLoop codec kind minIdle (.named stream) group (lists kind).source limit fuel exported)
      w := by
  induction fuel generalizing exported w with
  | zero => exact passes_throw hin _
  | succ fuel ih =>
    unfold exportLoop
    split
    · refine passes_bind (passes_nextBatch minIdle stream group _ hin) fun entries w₂ _ hin₂
        hknown => ?_
      split
      · exact passes_pure hin₂ trivial
      · exact passes_bind (passes_exportEntries kind stream group limit entries exported hin₂
          hknown)
          fun exported w₃ _ hin₃ _ => ih exported hin₃
    · exact passes_pure hin trivial

theorem passes_exportUnackedStreamToList {kind : Kind} (hin : InPass codec lists kindOf blank w) :
    Passes codec lists kindOf blank any
      (exportUnackedStreamToList codec settings kind (lists kind).source limit fuel) w := by
  refine passes_bind (passes_ensureGroup hin) fun _ w₁ _ hin₁ _ => ?_
  refine passes_bind (passes_any hin₁ trivial) fun rows w₂ _ hin₂ _ => ?_
  refine passes_bind (passes_ackLedgered kind _ _ rows 0 hin₂) fun exported w₃ _ hin₃ _ => ?_
  refine passes_bind (passes_exportLoop kind _ _ _ limit fuel exported hin₃) fun exported w₄ _ hin₄
    _ => ?_
  exact passes_bind (passes_pendingCount hin₄) fun _ _ _ hin₅ _ => passes_pure hin₅ trivial

theorem passes_exportRetries (limit : Int) (rows : List (Nat × Fields)) (exported : Int)
    (hin : InPass codec lists kindOf blank w) (hknown : KnownAll settings.retryStream rows w) :
    Passes codec lists kindOf blank any
      (exportRetries codec settings (fun kind => (lists kind).source) limit rows exported) w := by
  induction rows generalizing exported w with
  | nil => exact passes_pure hin trivial
  | cons row rows ih =>
    obtain ⟨id, fields⟩ := row
    have hrest : KnownAll settings.retryStream rows w :=
      fun entry hmem => hknown entry (List.mem_cons_of_mem _ hmem)
    unfold exportRetries
    split
    · exact passes_pure hin trivial
    · split
      · exact ih exported hin hrest
      · rename_i kind _
        split
        · exact ih exported hin hrest
        · rcases hitem : exportItem codec kind fields with fault | ⟨jobId, item⟩ <;> simp only
          · exact passes_throw hin _
          · refine passes_bind (passes_enqueueExportedJob kind jobId item hin)
              fun _ w₁ hon₁ hin₁ hpushed => ?_
            have hentry := (hknown _ List.mem_cons_self).onward hon₁
            refine passes_bind (passes_settle hin₁ (fun _ _ => rfl)
              (fun _ hkey => frames_xdel hkey id) (forward_xdel _ _) fun w₂ found hon₂ _ _ =>
                job_of_known hentry hitem hpushed w₂ found hon₂) fun _ w₂ hon₂ hin₂ _ => ?_
            exact ih _ hin₂ ((hrest.onward hon₁).onward hon₂)

theorem passes_exportRetryStream (limit : Int) (hin : InPass codec lists kindOf blank w) :
    Passes codec lists kindOf blank any
      (exportRetryStream codec settings (fun kind => (lists kind).source) limit) w :=
  passes_bind (passes_xrange hin) fun rows _ _ hin₁ hknown =>
    passes_exportRetries limit rows 0 hin₁ hknown

theorem passes_matchingRetryCount (fuel start : Nat) (count : Int)
    (hin : InPass codec lists kindOf blank w) :
    Passes codec lists kindOf blank any (matchingRetryCount settings fuel start count) w := by
  induction fuel generalizing start count w with
  | zero => exact passes_throw hin _
  | succ fuel ih =>
    unfold matchingRetryCount
    refine passes_attempt_bind (passes_any hin trivial) fun outcome w₁ _ hin₁ _ => ?_
    split
    · exact passes_throw hin₁ _
    · exact passes_pure hin₁ trivial
    · split
      · exact passes_pure hin₁ trivial
      · split
        · exact passes_pure hin₁ trivial
        · exact ih _ _ hin₁

abbrev KeepsInv {α : Type} (codec : Codec) (lists : Kind → QueueLists) (kindOf : String → Kind)
    (blank : String) (prog : Migration α) (w : World) : Prop :=
  Program.Safe
    (Remote.semantics fun command w reply w' =>
      Assigned codec lists kindOf blank command w ∧ Performed command w reply w')
    Outside (fun _ _ w' => ExportInv codec lists kindOf blank w') (fun _ _ => True) prog.run w

theorem keepsInv_bind {prog : Migration α} {f : α → Migration β}
    (h : Passes codec lists kindOf blank know prog w)
    (hf : ∀ value w', InPass codec lists kindOf blank w' →
      KeepsInv codec lists kindOf blank (f value) w') :
    KeepsInv codec lists kindOf blank (prog >>= f) w :=
  Safe.then h (fun value w' hpost => hf value w' hpost.2.1) (fun _ _ _ => trivial)

theorem inPass_setLock (hinv : ExportInv codec lists kindOf blank w) (text : String) :
    InPass codec lists kindOf blank (World.run (.set .exportLock text) w).2 := by
  have hdb : (World.run (.set .exportLock text) w).2.db =
    w.db.put .exportLock ⟨.string text, none⟩ := World.run_db _ w
  have hother : ∀ key, key ≠ .exportLock →
      (World.run (.set .exportLock text) w).2.db.live key = w.db.live key := fun key hkey => by
    rw [hdb]
    exact Db.live_put_of_ne _ hkey _
  have hlock : (World.run (.set .exportLock text) w).2.db.live .exportLock ≠ none := by
    rw [hdb, Db.live_put_self]
    simp [Entry.alive]
  have hstream : ∀ name, (World.run (.set .exportLock text) w).2.db.stream (.named name) =
      w.db.stream (.named name) := fun name => Db.stream_congr (hother _ (by simp))
  have hledger := hother .exportLedger (by simp)
  by_cases hfree : w.db.live .exportLock = none
  · have hempty : (World.run (.set .exportLock text) w).2.db.set .exportLedger = [] := by
      unfold Db.set
      rw [hledger, hinv.unlocked hfree]
    have hsettled : (World.run (.set .exportLock text) w).2.settled = [] := by
      show (if Key.exportLock = .exportLock ∧ w.db.live .exportLock = none then
        { w with pushed := [], settled := [] } else w).settled = []
      rw [if_pos ⟨rfl, hfree⟩]
    refine ⟨⟨fun id hmem => ?_, fun hnone => absurd hnone hlock, fun name => ?_, ?_⟩, hlock⟩
    · rw [hempty] at hmem
      cases hmem
    · rw [hstream]
      exact hinv.ordered name
    · intro fields hmem
      rw [hsettled] at hmem
      cases hmem
  · have hrecord : (World.run (.set .exportLock text) w).2 =
        { w with db := w.db.put .exportLock ⟨.string text, none⟩ } := by
      simp [World.run, Command.script, Redis.set, World.record, hfree]
    have hon : Onward w (World.run (.set .exportLock text) w).2 := by
      rw [hrecord]
      exact ⟨fun _ hmem => hmem, fun name => by rw [← hrecord, hstream]; exact .refl _⟩
    refine ⟨⟨fun id hmem => ?_, fun hnone => absurd hnone hlock, fun name => ?_, ?_⟩, hlock⟩
    · rw [Db.set_congr hledger] at hmem
      exact (hinv.ledger id hmem).onward hon
    · rw [hstream]
      exact hinv.ordered name
    · exact hinv.settled.onward hon (by rw [hrecord])

theorem exportInv_del {key : Key} (hinv : ExportInv codec lists kindOf blank w)
    (hkey : ∀ name, Key.named name ≠ key)
    (hledger : (w.db.remove key).live .exportLedger = none) :
    ExportInv codec lists kindOf blank { w with db := w.db.remove key } := by
  have hstream : ∀ name, (w.db.remove key).stream (.named name) = w.db.stream (.named name) :=
    fun name => Db.stream_congr (Db.live_remove_of_ne _ (hkey name))
  have hon : Onward w { w with db := w.db.remove key } :=
    ⟨fun _ hmem => hmem, fun name => by rw [hstream]; exact .refl _⟩
  refine ⟨fun id hmem => ?_, fun _ => hledger, fun name => ?_, hinv.settled.onward hon rfl⟩
  · unfold Db.set at hmem
    rw [hledger] at hmem
    cases hmem
  · rw [hstream]
    exact hinv.ordered name

theorem keepsInv_release {result : α} (hin : InPass codec lists kindOf blank w) :
    KeepsInv codec lists kindOf blank
      (do let _ ← redis (.del .exportLedger)
          let _ ← redis (.del .exportLock)
          return result : Migration α) w := by
  refine Safe.send_bind fun w₁ reply w₂ houtside hstep => ?_
  have hinv₁ := hin.toExportInv.outside houtside
  have hinv₂ : ExportInv codec lists kindOf blank { w₁ with db := w₁.db.remove .exportLedger } :=
    exportInv_del hinv₁ (by simp) (by simp)
  refine ⟨?_, fun value hreply => ?_, fun _ _ => trivial⟩
  · rcases hstep.2.state with rfl | rfl
    · exact hinv₁
    · exact hinv₂
  subst hreply
  obtain rfl : { w₁ with db := w₁.db.remove .exportLedger } = w₂ :=
    congrArg Prod.snd hstep.2.of_ok
  refine Safe.send_bind fun w₃ reply w₄ houtside hstep =>
    ⟨?_, fun _ _ => trivial, fun _ _ => trivial⟩
  have hinv₃ := hinv₂.outside houtside
  have hledger : w₃.db.live .exportLedger = none := by
    rw [houtside.ledger]
    exact Db.live_remove_self _ _
  rcases hstep.2.state with rfl | rfl
  · exact hinv₃
  · exact exportInv_del hinv₃ (by simp) (by rwa [Db.live_remove_of_ne _ (by simp)])

theorem keepsInv_rollback (hinv : ExportInv codec lists kindOf blank w) :
    KeepsInv codec lists kindOf blank
      (rollbackSpeechVectorToLists codec settings lists limit fuel) w := by
  refine Safe.send_bind fun w₁ reply w₂ houtside hstep => ?_
  have hinv₁ := hinv.outside houtside
  have hlocked := inPass_setLock hinv₁ "rollback"
  refine ⟨?_, fun value hreply => ?_, fun _ _ => trivial⟩
  · rcases hstep.2.state with rfl | rfl
    · exact hinv₁
    · exact hlocked.toExportInv
  subst hreply
  obtain rfl : (World.run (.set .exportLock "rollback") w₁).2 = w₂ :=
    congrArg Prod.snd hstep.2.of_ok
  refine keepsInv_bind (passes_restoreMigratingList hlocked) fun _ w hin => ?_
  refine keepsInv_bind (passes_restoreMigratingList hin) fun _ w hin => ?_
  refine keepsInv_bind (passes_exportUnackedStreamToList hin) fun _ w hin => ?_
  refine keepsInv_bind (passes_exportUnackedStreamToList hin) fun _ w hin => ?_
  refine keepsInv_bind (passes_exportRetryStream limit hin) fun _ w hin => ?_
  refine keepsInv_bind (passes_matchingRetryCount fuel 0 0 hin) fun _ w hin => ?_
  simp only
  split
  · exact keepsInv_release hin
  · trivial

/-- Since the export lock was taken, every stream entry that a pass acknowledged or deleted has
had its job pushed to the list of its kind, where no job id is used by both kinds. -/
theorem settled_jobs_pushed {db : Db Key} (hledger : db.live .exportLedger = none)
    (hordered : ∀ name, (db.stream (.named name)).Ordered)
    (run : ExportRun codec settings lists (Assigned codec lists kindOf blank) db w) :
    SettledPushed codec lists w := by
  have hinv : ExportInv codec lists kindOf blank w := by
    refine Sessions.invariant (ExportInv codec lists kindOf blank)
      (fun _ _ w' => ExportInv codec lists kindOf blank w') ?_ ?_ ?_ ?_ ?_ ?_ run
    · exact fun _ _ _ => Outside.trans
    · exact Outside.refl
    · exact fun _ _ hinv houtside => hinv.outside houtside
    · exact fun _ _ _ _ hinv => hinv
    · rintro _ _ w hinv ⟨limit, fuel⟩
      exact keepsInv_rollback hinv
    · refine ⟨fun id hmem => ?_, fun _ => hledger, hordered, nofun⟩
      unfold Db.set at hmem
      rw [hledger] at hmem
      cases hmem
  exact hinv.settled

/-! Two entries of one job: its speech stage and its vector stage. -/

def sampleEvent (kind : Kind) : EventEnvelope where
  eventId := "e1"
  eventType := kind.eventType
  correlationId := "j1"
  userId := "u1"
  spaceId := ""
  conversationId := "j1"
  payload := [("jobId", .str "j1")]
  createdAt := "2026-01-01T00:00:00Z"

def sampleText (kind : Kind) : String :=
  "\x7b\"eventId\":\"e1\",\"eventType\":\"" ++ kind.eventType ++ "\",\"correlationId\":\"j1\"," ++
    "\"userId\":\"u1\",\"spaceId\":\"\",\"conversationId\":\"j1\"," ++
    "\"payload\":\x7b\"jobId\":\"j1\"\x7d,\"createdAt\":\"2026-01-01T00:00:00Z\"\x7d"

def sampleCodec : Codec where
  loads text := if text = "\x7b\"jobId\": \"j1\"\x7d" then .dict [("jobId", .str "j1")] none
    else .notJson
  dumps payload := if payload = [("jobId", .str "j1")] then "\x7b\"jobId\": \"j1\"\x7d"
    else "\x7b\x7d"
  validate text :=
    if text = sampleText .speech then some (sampleEvent .speech)
    else if text = sampleText .vector then some (sampleEvent .vector)
    else none
  dump event := if event.eventType = Kind.speech.eventType then sampleText .speech else sampleText
    .vector

def rollbackSettings : MigrationSettings where
  transport := .stream
  speechStream := "speech.stream"
  vectorStream := "vector.stream"
  retryStream := "retry.stream"
  speechGroup := "speech"
  vectorGroup := "vector"
  reclaimMinIdleMs := 90000

def sampleLists : Kind → QueueLists
  | .speech => ⟨speechQueue⟩
  | .vector => ⟨completedSpeechQueue⟩

def sampleStream (kind : Kind) : Stream := ⟨[(1, [("event", sampleText kind)])], 1, fun _ => none⟩

def bothStages : Db Key where
  now := 0
  find key :=
    if key = .named "speech.stream" then some ⟨.stream (sampleStream .speech), none⟩
    else if key = .named "vector.stream" then some ⟨.stream (sampleStream .vector), none⟩
    else none

theorem bothStages_ordered (name : String) : (bothStages.stream (.named name)).Ordered := by
  have hsample : ∀ kind, (sampleStream kind).Ordered := fun kind =>
    ⟨List.pairwise_singleton _ _, fun entry hmem => by
      rw [List.mem_singleton.mp hmem]
      exact Nat.le_refl _⟩
  by_cases hspeech : name = "speech.stream"
  · subst hspeech
    exact hsample .speech
  · by_cases hvector : name = "vector.stream"
    · subst hvector
      exact hsample .vector
    · have hnone : bothStages.live (.named name) = none := by
        simp [Db.live, bothStages, hspeech, hvector]
      unfold Db.stream
      rw [hnone]
      exact Stream.ordered_empty

def sampleAfter (n : Nat) : World :=
  (advance (Remote.answer World.run) n
    (rollbackSpeechVectorToLists sampleCodec rollbackSettings sampleLists 1 2).run
    ⟨bothStages, [], [], []⟩).2

/-- The vector entry is acknowledged, and its job is on the speech list only. -/
theorem vector_entry_settled_unpushed :
    ∃ w, ExportRun sampleCodec rollbackSettings sampleLists (fun _ _ => True) bothStages w ∧
      bothStages.live .exportLock = none ∧ bothStages.live .exportLedger = none ∧
      ¬ SettledPushed sampleCodec sampleLists w := by
  have run : ExportRun sampleCodec rollbackSettings sampleLists (fun _ _ => True) bothStages
      (sampleAfter 18) := by
    refine .session .start (.pass 1 2) (reach_advance (fun _ _ => true) ?_ 18 _ _
      (by decide +kernel))
    rintro β ⟨command⟩ w -
    exact ⟨trivial, .answered⟩
  have hpushed : (sampleAfter 18).pushed =
      [⟨.named speechQueue, "j1", "\x7b\"jobId\": \"j1\"\x7d"⟩] := by decide +kernel
  have hsettled : (sampleAfter 18).settled =
      [[("event", sampleText .vector)], [("event", sampleText .speech)]] := by decide +kernel
  refine ⟨sampleAfter 18, run, rfl, rfl, fun h => ?_⟩
  obtain ⟨kind, jobId, item, hitem, payload, hmem, -⟩ :=
    h [("event", sampleText .vector)] (by rw [hsettled]; exact List.mem_cons_self)
  rw [hpushed] at hmem
  obtain rfl : kind = .vector := by
    cases kind with
    | speech =>
      have hpoison : exportItem sampleCodec .speech [("event", sampleText .vector)] =
        .error (.poison "stream entry is not a speech job") := by decide +kernel
      rw [hpoison] at hitem
      cases hitem
    | vector => rfl
  have hsource : (sampleLists .vector).source ≠ Key.named speechQueue := by decide
  exact hsource (congrArg Push.destination (List.mem_singleton.mp hmem))

/-- `Assigned`, evaluated, where every job is a speech job with an id. -/
def allSpeech {β : Type} (command : Remote Error Command β) (w : World) : Bool :=
  match β, command with
  | _, .send (.enqueueOnce destination jobId _) =>
    decide (destination = (sampleLists .speech).source ∧ jobId ≠ "")
  | _, .send (.xack stream _ id) =>
    decide (((w.db.stream stream).entryAt id) = some [("event", sampleText .speech)])
  | _, .send _ => true

theorem exportItem_sample
    (h : exportItem sampleCodec kind [("event", sampleText .speech)] = .ok (jobId, item)) :
    kind = .speech ∧ jobId = "j1" := by
  have hspeech : exportItem sampleCodec .speech [("event", sampleText .speech)] =
    .ok ("j1", "\x7b\"jobId\": \"j1\"\x7d") := by decide +kernel
  have hvector : exportItem sampleCodec .vector [("event", sampleText .speech)] =
    .error (.poison "stream entry is not a vector job") := by decide +kernel
  cases kind with
  | speech =>
    rw [hspeech] at h
    cases h
    exact ⟨rfl, rfl⟩
  | vector =>
    rw [hvector] at h
    cases h

theorem settled_jobs_pushed_sample :
    (sampleAfter 12).settled = [[("event", sampleText .speech)]] ∧
      SettledPushed sampleCodec sampleLists (sampleAfter 12) := by
  have run : ExportRun sampleCodec rollbackSettings sampleLists
      (Assigned sampleCodec sampleLists (fun _ => .speech) "") bothStages (sampleAfter 12) := by
    refine .session .start (.pass 1 2) (reach_advance allSpeech ?_ 12 _ _ (by decide +kernel))
    rintro β ⟨command⟩ w hcheck
    refine ⟨?_, .answered⟩
    cases command <;> try exact trivial
    case enqueueOnce =>
      obtain ⟨hdestination, hjobId⟩ := of_decide_eq_true hcheck
      exact ⟨hdestination, fun h => absurd h hjobId⟩
    case xack =>
      intro fields hfields kind jobId item hitem
      rw [of_decide_eq_true hcheck] at hfields
      cases hfields
      obtain ⟨rfl, rfl⟩ := exportItem_sample hitem
      exact ⟨rfl, fun h => absurd h (by decide)⟩
  exact ⟨by decide +kernel, settled_jobs_pushed rfl bothStages_ordered run⟩

end AiBuddy.Queue.LegacyMigration
