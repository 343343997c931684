import AiBuddy.Mindmap.Edits

/-!
# Edits that are kept

Where nothing that a call has read changes before the call writes, a removal removes from the stored
graph and a new version is the highest. Pruning takes no highest version away, however late it is.
-/

namespace AiBuddy.Mindmap.Edits

open Program

variable {s s' : State} {slot : Slot} {doc : MapDoc}

namespace State

theorem mem_versionsOf {version : Nat} :
    version ∈ s.versionsOf slot ↔ ∃ doc ∈ s.maps, doc.slot = slot ∧ doc.version = version := by
  simp [versionsOf, and_assoc]

theorem le_latest (h : doc ∈ s.maps) : doc.version ≤ s.latest doc.slot := by
  have hmem : doc.version ∈ s.versionsOf doc.slot := mem_versionsOf.mpr ⟨doc, h, rfl, rfl⟩
  cases hmax : (s.versionsOf doc.slot).max? with
  | none => simp [List.max?_eq_none_iff.mp hmax] at hmem
  | some top =>
    rw [latest, hmax]
    exact (List.max?_eq_some_iff.mp hmax).2 _ hmem

theorem latest_eq_zero_or (s : State) (slot : Slot) :
    s.latest slot = 0 ∨ ∃ doc ∈ s.maps, doc.slot = slot ∧ doc.version = s.latest slot := by
  cases hmax : (s.versionsOf slot).max? with
  | none => simp [latest, hmax]
  | some top =>
    rw [latest, hmax]
    exact .inr (mem_versionsOf.mp (List.max?_eq_some_iff.mp hmax).1)

theorem latest_le (h : ∀ doc ∈ s.maps, doc.version = s.latest doc.slot →
    ∃ doc' ∈ s'.maps, doc'.slot = doc.slot ∧ doc'.version = doc.version) (slot : Slot) :
    s.latest slot ≤ s'.latest slot := by
  rcases s.latest_eq_zero_or slot with hzero | ⟨doc, hdoc, rfl, htop⟩
  · rw [hzero]
    exact Nat.zero_le _
  · obtain ⟨doc', hdoc', hslot, hversion⟩ := h doc hdoc htop
    rw [← htop, ← hversion, ← hslot]
    exact le_latest hdoc'

end State

structure Sound (s : State) : Prop where
  ids : (s.maps.map (·.id)).Nodup
  made : ∀ doc ∈ s.maps, doc.id < s.made
  versions : (s.maps.map fun doc => (doc.slot, doc.version)).Nodup
  below : ∀ entry ∈ s.reserved, entry.2 ≤ s.latest entry.1
  differ : s.VersionsDiffer
  stay : s.RemovedStay

structure Later (s s' : State) : Prop where
  made : s.made ≤ s'.made
  latest : ∀ slot, s.latest slot ≤ s'.latest slot
  old : ∀ doc' ∈ s'.maps, doc'.id < s.made →
    ∃ doc ∈ s.maps, doc.id = doc'.id ∧ doc.slot = doc'.slot ∧ doc.version = doc'.version

def Moves (s s' : State) : Prop := Sound s → Sound s' ∧ Later s s'

theorem Later.refl (s : State) : Later s s :=
  ⟨Nat.le_refl _, fun _ => Nat.le_refl _, fun doc hdoc _ => ⟨doc, hdoc, rfl, rfl, rfl⟩⟩

theorem Later.trans {s₁ : State} (h : Later s s₁) (h' : Later s₁ s') : Later s s' where
  made := h.made.trans h'.made
  latest slot := (h.latest slot).trans (h'.latest slot)
  old doc' hdoc' hid := by
    obtain ⟨doc₁, hdoc₁, hid₁, hslot₁, hversion₁⟩ := h'.old doc' hdoc' (by have := h.made; omega)
    obtain ⟨doc, hdoc, hid', hslot', hversion'⟩ := h.old doc₁ hdoc₁ (hid₁ ▸ hid)
    exact ⟨doc, hdoc, hid'.trans hid₁, hslot'.trans hslot₁, hversion'.trans hversion₁⟩

theorem Moves.refl (s : State) : Moves s s := fun h => ⟨h, .refl s⟩

theorem Moves.trans {s₁ : State} (h : Moves s s₁) (h' : Moves s₁ s') : Moves s s' := fun hsound =>
  let ⟨hsound₁, hlater⟩ := h hsound
  ⟨(h' hsound₁).1, hlater.trans (h' hsound₁).2⟩

theorem moves_map {change : MapDoc → MapDoc} {removed : List (Nat × String)}
    (hchange : ∀ doc, (change doc).id = doc.id ∧ (change doc).slot = doc.slot ∧
      (change doc).version = doc.version)
    (hstay : s.RemovedStay → ∀ removal ∈ removed, ∀ doc ∈ s.maps, doc.id = removal.1 →
      Lacks (change doc).graph removal.2) :
    Moves s { s with maps := s.maps.map change, removed } := by
  intro h
  have hversions : ∀ slot, ({ s with maps := s.maps.map change, removed } : State).versionsOf slot =
      s.versionsOf slot := by
    simp [State.versionsOf, List.filter_map, Function.comp_def, hchange]
  have hlatest : ∀ slot, ({ s with maps := s.maps.map change, removed } : State).latest slot =
      s.latest slot := fun slot => by rw [State.latest, hversions, State.latest]
  refine ⟨⟨?_, ?_, ?_, fun entry hentry => (h.below entry hentry).trans_eq (hlatest _).symm,
    h.differ, ?_⟩, ⟨Nat.le_refl _, fun slot => (hlatest slot).ge, ?_⟩⟩
  · simpa [Function.comp_def, hchange] using h.ids
  · simpa [hchange] using h.made
  · simpa [Function.comp_def, hchange] using h.versions
  · simpa [State.RemovedStay, hchange] using hstay h.stay
  · simp only [List.mem_map, forall_exists_index, and_imp]
    rintro _ doc hdoc rfl -
    obtain ⟨hid, hslot, hversion⟩ := hchange doc
    exact ⟨doc, hdoc, hid.symm, hslot.symm, hversion.symm⟩

theorem moves_elsewhere (h : Elsewhere s s') : Moves s s' := by
  obtain ⟨status, rfl⟩ := h
  exact moves_map (fun doc => ⟨rfl, rfl, rfl⟩) fun hstay => hstay

variable {target : String}

theorem lacks_without {graph : MindmapGraph} : Lacks (graph.without target) target := by
  simp [Lacks, MindmapGraph.without]

theorem Lacks.without {graph : MindmapGraph} (h : Lacks graph target) (other : String) :
    Lacks (graph.without other) target := by
  refine ⟨fun hmem => h.1 ?_, fun edge hedge => h.2 edge (List.mem_of_mem_filter hedge)⟩
  exact (List.filter_sublist.map _).subset hmem

theorem moves_setGraph {mapId : Nat} {read : MindmapGraph}
    (hread : ∀ doc ∈ s.maps, doc.id = mapId → doc.graph = read) :
    Moves s (s.setGraph mapId target (read.without target)) := by
  refine moves_map (fun doc => by split <;> exact ⟨rfl, rfl, rfl⟩) fun hstay => ?_
  intro removal hremoval doc hdoc hid
  by_cases hmap : doc.id = mapId
  · rw [if_pos hmap]
    rcases List.mem_append.mp hremoval with hold | hnew
    · have hlacks := hstay removal hold doc hdoc hid
      rw [hread doc hdoc hmap] at hlacks
      exact hlacks.without target
    · rw [List.mem_singleton.mp hnew]
      exact lacks_without
  · rw [if_neg hmap]
    rcases List.mem_append.mp hremoval with hold | hnew
    · exact hstay removal hold doc hdoc hid
    · rw [List.mem_singleton.mp hnew] at hid
      exact absurd hid hmap

theorem moves_insert {slot : Slot} : Moves s (s.insert slot (s.latest slot + 1)) := by
  intro h
  have hmem : ∀ {doc}, doc ∈ (s.insert slot (s.latest slot + 1)).maps ↔
      doc ∈ s.maps ∨ doc = s.newDoc slot (s.latest slot + 1) := by simp [State.insert]
  have hlatest : ∀ other, s.latest other ≤ (s.insert slot (s.latest slot + 1)).latest other :=
    State.latest_le fun doc hdoc _ => ⟨doc, hmem.mpr (.inl hdoc), rfl, rfl⟩
  have hnew : s.latest slot + 1 ≤ (s.insert slot (s.latest slot + 1)).latest slot :=
    State.le_latest (hmem.mpr (.inr rfl) : s.newDoc slot (s.latest slot + 1) ∈ _)
  refine ⟨⟨?_, ?_, ?_, ?_, ?_, ?_⟩, ⟨Nat.le_succ _, hlatest, ?_⟩⟩
  · rw [State.insert, List.map_append, List.map_singleton]
    refine List.nodup_append_comm.mp (h.ids.cons fun hold => ?_)
    obtain ⟨doc, hdoc, hid⟩ := List.mem_map.mp hold
    exact absurd (h.made doc hdoc) (by rw [hid]; exact Nat.lt_irrefl _)
  · intro doc hdoc
    rcases hmem.mp hdoc with hold | rfl
    · exact (h.made doc hold).trans (Nat.lt_succ_self _)
    · exact Nat.lt_succ_self _
  · rw [State.insert, List.map_append, List.map_singleton]
    refine List.nodup_append_comm.mp (h.versions.cons fun hold => ?_)
    obtain ⟨doc, hdoc, hsame⟩ := List.mem_map.mp hold
    obtain ⟨rfl, hversion⟩ := Prod.mk.inj hsame
    have hle := State.le_latest hdoc
    rw [hversion] at hle
    exact absurd hle (Nat.not_succ_le_self _)
  · intro entry hentry
    rcases List.mem_append.mp hentry with hold | hlast
    · exact (h.below entry hold).trans (hlatest _)
    · rw [List.mem_singleton.mp hlast]
      exact hnew
  · refine List.nodup_append_comm.mp (h.differ.cons fun hold => ?_)
    exact absurd (h.below _ hold) (Nat.not_succ_le_self _)
  · intro removal hremoval doc hdoc hid
    rcases hmem.mp hdoc with hold | rfl
    · exact h.stay removal hremoval doc hold hid
    · exact ⟨List.not_mem_nil, nofun⟩
  · intro doc' hdoc' hid
    rcases hmem.mp hdoc' with hold | rfl
    · exact ⟨doc', hold, rfl, rfl, rfl⟩
    · exact absurd hid (Nat.lt_irrefl _)

structure Outdated (ids : List Nat) (s : State) : Prop where
  given : ∀ mapId ∈ ids, mapId < s.made
  older : ∀ doc ∈ s.maps, doc.id ∈ ids → doc.version < s.latest doc.slot

theorem Outdated.later {ids : List Nat} (h : Outdated ids s) (hlater : Later s s') :
    Outdated ids s' where
  given mapId hid := (h.given mapId hid).trans_le hlater.made
  older doc' hdoc' hid := by
    obtain ⟨doc, hdoc, hsame, hslot, hversion⟩ := hlater.old doc' hdoc' (h.given _ hid)
    have hbefore := h.older doc hdoc (hsame ▸ hid)
    rw [hversion, hslot] at hbefore
    exact hbefore.trans_le (hlater.latest _)

theorem moves_deleteMany {ids : List Nat} (hold : Outdated ids s) : Moves s (s.deleteMany ids) := by
  intro h
  have hsub : (s.deleteMany ids).maps.Sublist s.maps := List.filter_sublist
  have hlatest : ∀ slot, s.latest slot ≤ (s.deleteMany ids).latest slot := by
    refine State.latest_le fun doc hdoc htop => ⟨doc, List.mem_filter.mpr ⟨hdoc, ?_⟩, rfl, rfl⟩
    refine decide_eq_true fun hid => ?_
    exact absurd htop (Nat.ne_of_lt (hold.older doc hdoc hid))
  exact ⟨⟨h.ids.sublist (hsub.map _), fun doc hdoc => h.made doc (hsub.subset hdoc),
    h.versions.sublist (hsub.map _), fun entry hentry => (h.below entry hentry).trans (hlatest _),
    h.differ, fun removal hremoval doc hdoc => h.stay removal hremoval doc (hsub.subset hdoc)⟩,
    ⟨Nat.le_refl _, hlatest, fun doc hdoc _ => ⟨doc, hsub.subset hdoc, rfl, rfl, rfl⟩⟩⟩

theorem Sound.outdated (h : Sound s) (slot : Slot) :
    Outdated (((s.settled slot).drop maxVersionsPerSpace).map (·.id)) s := by
  have hperm := (List.reverse_perm _).trans
    (@Keyed.perm_sort _ MapDoc.version (s.maps.filter fun doc =>
      doc.slot = slot ∧ (doc.status = .ready ∨ doc.status = .failed)))
  have hmem : ∀ doc ∈ s.settled slot, doc ∈ s.maps ∧ doc.slot = slot := by
    intro doc hdoc
    have hfiltered := List.mem_filter.mp (hperm.subset (List.mem_of_mem_take hdoc))
    exact ⟨hfiltered.1, (of_decide_eq_true hfiltered.2).1⟩
  have hnodup : (s.settled slot).Nodup :=
    (hperm.nodup_iff.mpr (h.ids.of_map.filter _)).sublist (List.take_sublist _ _)
  have hsorted : (s.settled slot).Pairwise fun first later => later.version ≤ first.version :=
    (List.pairwise_reverse.mpr (Keyed.sorted_sort _)).sublist (List.take_sublist _ _)
  generalize s.settled slot = docs at hmem hnodup hsorted
  refine ⟨fun mapId hid => ?_, fun doc hdoc hid => ?_⟩
  · obtain ⟨doc, hdoc, rfl⟩ := List.mem_map.mp hid
    exact h.made doc (hmem doc (List.mem_of_mem_drop hdoc)).1
  · obtain ⟨pruned, hpruned, hsame⟩ := List.mem_map.mp hid
    have hlisted := hmem pruned (List.mem_of_mem_drop hpruned)
    obtain rfl := List.inj_on_of_nodup_map h.ids hlisted.1 hdoc hsame
    cases docs with
    | nil => simp at hpruned
    | cons first rest =>
      have hrest : pruned ∈ rest := List.mem_of_mem_drop (hpruned : pruned ∈ rest.drop 4)
      have hfirst := hmem first List.mem_cons_self
      have hle := (List.pairwise_cons.mp hsorted).1 pruned hrest
      have hne : pruned.version ≠ first.version := by
        intro heq
        have hpair : (pruned.slot, pruned.version) = (first.slot, first.version) := by
          rw [hlisted.2, hfirst.2, heq]
        obtain rfl := List.inj_on_of_nodup_map h.versions hlisted.1 hfirst.1 hpair
        exact (List.nodup_cons.mp hnodup).1 hrest
      have htop := State.le_latest hfirst.1
      rw [hfirst.2, ← hlisted.2] at htop
      omega

def Free {β : Type} (command : Remote EditError Command β) : Prop :=
  ∀ s reply s', edits unchanged command s reply s' → Moves s s'

theorem free_ask {α : Type} {command : Command α}
    (h : ∀ s, unchanged command s → Moves s (State.run command s).2) :
    Free (.send command) := by
  rintro s reply s' ⟨hcondition, hanswers⟩
  rcases hanswers.state with rfl | rfl
  · exact .refl s'
  · exact h s hcondition

theorem free_setGraph {mapId : Nat} {read : MindmapGraph} :
    Free (.send (.setGraph mapId target read)) := by
  refine free_ask fun s hread => ?_
  unfold State.run
  dsimp only
  split
  · exact moves_setGraph hread
  · exact .refl s

theorem free_insert {slot : Slot} {version : Nat} : Free (.send (.insert slot version)) := by
  refine free_ask fun s hlatest => ?_
  rw [show version = s.latest slot + 1 from hlatest]
  exact moves_insert

abbrev Safely {α : Type} (post : Except EditError α → State → Prop) (prog : Editing α)
    (s : State) : Prop :=
  Safe (edits unchanged) Moves (fun _ => Moves) post prog.run s

theorem safely_ask {α : Type} {command : Command α} (hfree : Free (.send command)) (h : Sound s) :
    Safely (fun _ => Sound) (ask command) s := by
  refine Safe.send fun s₁ reply s₂ hrely hstep => ?_
  have hmoves := hfree s₁ reply s₂ ⟨hstep.1, hstep.2⟩
  exact ⟨hmoves, (hmoves (hrely h).1).1⟩

theorem safely_removeNode {mapId : Nat} {nodeId : String} (h : Sound s) :
    Safely (fun _ _ => True) (removeNode mapId nodeId) s := by
  refine Safe.then (safely_ask (free_ask fun s _ => .refl s) h) ?_ fun _ _ _ => trivial
  intro document s₁ hsound
  cases document with
  | none => trivial
  | some document =>
    dsimp only
    split
    · trivial
    · split
      · trivial
      · exact (safely_ask free_setGraph hsound).mono fun _ _ _ => trivial

theorem safely_pruneOldVersions {slot : Slot} (h : Sound s) :
    Safely (fun _ _ => True) (pruneOldVersions slot) s := by
  refine Safe.send_bind fun s₁ reply s₂ hrely hstep => ?_
  obtain ⟨hsound, -⟩ := hrely h
  have hsame : s₂ = s₁ := by rcases hstep.2.state with rfl | rfl <;> rfl
  refine ⟨hsame ▸ .refl s₁, ?_, fun _ _ => trivial⟩
  rintro docs rfl
  obtain rfl : s₁.settled slot = docs := Except.ok.inj (congrArg Prod.fst hstep.2.of_ok)
  rw [hsame]
  split
  · trivial
  · refine Safe.send fun s₃ reply s₄ hmoves hdelete => ⟨?_, trivial⟩
    rcases hdelete.2.state with rfl | rfl
    · exact .refl s₄
    · exact moves_deleteMany ((hsound.outdated slot).later (hmoves hsound).2)

theorem safely_reserve {slot : Slot} (h : Sound s) : Safely (fun _ _ => True) (reserve slot) s := by
  have hversion : Safely (fun _ => Sound) (nextVersion slot) s :=
    Safe.then (safely_ask (free_ask fun s _ => .refl s) h) (fun _ _ hsound => hsound)
      fun _ _ hsound => hsound
  refine Safe.then hversion (fun version s₁ hsound => ?_) fun _ _ _ => trivial
  refine Safe.then (safely_ask free_insert hsound) ?_ fun _ _ _ => trivial
  intro doc s₂ hsound
  exact Safe.then (safely_pruneOldVersions hsound) (fun _ _ _ => trivial) fun _ _ _ => trivial

structure Starts (s : State) : Prop where
  ids : (s.maps.map (·.id)).Nodup
  made : ∀ doc ∈ s.maps, doc.id < s.made
  versions : (s.maps.map fun doc => (doc.slot, doc.version)).Nodup
  fresh : s.removed = [] ∧ s.reserved = []

/-- In a run in which nothing that a call has read changes before the call writes, what has been
removed stays removed, and the reserved versions differ. -/
theorem edits_kept {start : State} (hstart : Starts start) {pool : EditPool}
    (hrun : EditRun unchanged start pool) :
    pool.shared.RemovedStay ∧ pool.shared.VersionsDiffer := by
  have hsound : Sound start := by
    refine ⟨hstart.ids, hstart.made, hstart.versions, ?_, ?_, ?_⟩
    · rw [hstart.fresh.2]
      nofun
    · rw [State.VersionsDiffer, hstart.fresh.2]
      exact List.nodup_nil
    · rw [State.RemovedStay, hstart.fresh.1]
      nofun
  have hinv := (Pool.Run.invariant Sound (fun _ => Moves) (fun _ _ _ => .trans) .refl
    (fun s s' h hmove => ⟨moves_elsewhere hmove, (moves_elsewhere hmove h).1⟩)
    (fun _ s s' h hmoves => ⟨hmoves, (hmoves h).1⟩)
    (by
      rintro prog s h (⟨mapId, nodeId, rfl⟩ | ⟨slot, rfl⟩)
      · exact safely_removeNode h
      · exact safely_reserve h)
    hsound hrun .refl).1
  exact ⟨hinv.stay, hinv.differ⟩

def sampleNode (id : String) : MindmapNode := { id, kind := .card, title := id, tone := .cyan }

def sampleStart : State :=
  ⟨[⟨0, ("u", "s"), .ready, 1, ⟨[sampleNode "a", sampleNode "b"], []⟩⟩], 1, [], []⟩

def sampleCalls (order : List Nat) : EditPool :=
  Pool.turns (Remote.answer State.run) order
    ⟨[(removeNode 0 "a").run, (removeNode 0 "b").run, (reserve ("u", "s")).run,
      (reserve ("u", "s")).run], sampleStart⟩

def overlapping : EditPool := sampleCalls [0, 1, 0, 1, 2, 3, 2, 3, 2, 3]

def oneByOne : EditPool := sampleCalls [0, 0, 1, 1, 2, 2, 2, 3, 3, 3]

def returned {α : Type} :
    Program (Remote EditError Command) (Except EditError (Option α)) → Bool
  | .ret (.ok (some _)) => true
  | _ => false

def checkUnchanged {β : Type} (command : Remote EditError Command β) (s : State) : Bool :=
  match command with
  | .send (.setGraph mapId _ read) => ∀ doc ∈ s.maps, doc.id = mapId → doc.graph = read
  | .send (.insert slot version) => version = s.latest slot + 1
  | .send _ => true

theorem sampleCalls_start (condition : Condition) : EditRun condition sampleStart
    ⟨[(removeNode 0 "a").run, (removeNode 0 "b").run, (reserve ("u", "s")).run,
      (reserve ("u", "s")).run], sampleStart⟩ :=
  (((Relation.ReflTransGen.single (.spawn (.inr ⟨_, rfl⟩))).tail (.spawn (.inr ⟨_, rfl⟩))).tail
    (.spawn (.inl ⟨_, _, rfl⟩))).tail (.spawn (.inl ⟨_, _, rfl⟩))

theorem edits_of_check {β : Type} (command : Remote EditError Command β) (s : State)
    (h : checkUnchanged command s = true) :
    edits unchanged command s (Remote.answer State.run command s).1
      (Remote.answer State.run command s).2 := by
  rcases command with @⟨α, command⟩
  refine ⟨?_, .answered⟩
  cases command with
  | setGraph | insert =>
    simp only [unchanged]
    exact of_decide_eq_true h
  | _ => trivial

theorem edits_kept_sample :
    oneByOne.shared.removed = [(0, "a"), (0, "b")] ∧
      oneByOne.shared.reserved = [(("u", "s"), 2), (("u", "s"), 3)] ∧
      oneByOne.shared.RemovedStay ∧ oneByOne.shared.VersionsDiffer :=
  ⟨by decide +kernel, by decide +kernel,
    edits_kept ⟨by decide, by decide, by decide, rfl, rfl⟩
      ((sampleCalls_start unchanged).trans (Pool.turns_run checkUnchanged edits_of_check _ _
        (by decide +kernel)))⟩

/-- All calls return. The second removal puts the first node back, and both reservations have the
version 2. -/
theorem overlapping_edits_lost :
    EditRun anyhow sampleStart overlapping ∧ overlapping.threads.all returned = true ∧
      overlapping.shared.removed = [(0, "a"), (0, "b")] ∧
      overlapping.shared.maps.map (fun doc => (doc.version, doc.graph.nodes.map (·.id))) =
        [(1, ["a"]), (2, []), (2, [])] ∧
      ¬ overlapping.shared.RemovedStay ∧ ¬ overlapping.shared.VersionsDiffer := by
  have hanswered : ∀ {β : Type} (command : Remote EditError Command β) (s : State),
      edits anyhow command s (Remote.answer State.run command s).1
        (Remote.answer State.run command s).2 := by
    rintro β ⟨command⟩ s
    exact ⟨trivial, .answered⟩
  refine ⟨(sampleCalls_start anyhow).trans (Pool.turns_reach hanswered _ _), by decide +kernel,
    by decide +kernel, by decide +kernel, ?_, ?_⟩
  · unfold State.RemovedStay Lacks
    decide +kernel
  · unfold State.VersionsDiffer
    decide +kernel

end AiBuddy.Mindmap.Edits
