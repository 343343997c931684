import AiBuddy.Redis.Frame

/-!
# Streams only move forward

Entry ids are given out in increasing order and an entry never changes: what is
under an id later was there before, or the id is new. Every command keeps this for
every stream, since the list commands fail on a stream.
-/

namespace Redis

variable {K : Type} {α β : Type}

variable {stream : Stream} {id : Nat}

namespace Stream

structure Ordered (stream : Stream) : Prop where
  increasing : stream.entries.Pairwise (fun entry entry' => entry.1 < entry'.1)
  le_lastId : ∀ entry ∈ stream.entries, entry.1 ≤ stream.lastId

structure Follows (stream stream' : Stream) : Prop where
  lastId_le : stream.lastId ≤ stream'.lastId
  entry : ∀ id fields, stream'.entryAt id = some fields →
    stream.entryAt id = some fields ∨ stream.lastId < id

theorem Follows.refl (stream : Stream) : stream.Follows stream :=
  ⟨Nat.le_refl _, fun _ _ h => .inl h⟩

theorem Follows.trans {s₁ s₂ s₃ : Stream} (h₁ : s₁.Follows s₂) (h₂ : s₂.Follows s₃) :
    s₁.Follows s₃ := by
  refine ⟨Nat.le_trans h₁.lastId_le h₂.lastId_le, fun id fields h => ?_⟩
  rcases h₂.entry id fields h with hentry | hnew
  · exact h₁.entry id fields hentry
  · exact .inr (by have := h₁.lastId_le; omega)

theorem mem_of_entryAt {fields : Fields} (h : stream.entryAt id = some fields) :
    (id, fields) ∈ stream.entries := by
  unfold entryAt at h
  generalize stream.entries = entries at h
  induction entries with
  | nil => cases h
  | cons entry entries ih =>
    rw [List.lookup_cons] at h
    split at h
    · rename_i hid
      rw [beq_iff_eq] at hid
      subst hid
      cases h
      exact List.mem_cons_self
    · exact List.mem_cons_of_mem _ (ih h)

theorem Ordered.entryAt_of_mem (h : stream.Ordered) {fields : Fields}
    (hmem : (id, fields) ∈ stream.entries) : stream.entryAt id = some fields := by
  have hincreasing := h.increasing
  unfold entryAt
  generalize stream.entries = entries at hmem hincreasing
  induction entries with
  | nil => cases hmem
  | cons entry entries ih =>
    obtain ⟨there, found⟩ := entry
    obtain ⟨hless, hrest⟩ := List.pairwise_cons.mp hincreasing
    rcases List.mem_cons.mp hmem with heq | hmem
    · cases heq
      exact List.lookup_cons_self
    · have hne : (id == there) = false := by
        have : there < id := hless _ hmem
        simp
        omega
      rw [List.lookup_cons, hne]
      exact ih hmem hrest

theorem ordered_empty : Stream.empty.Ordered := ⟨.nil, nofun⟩

theorem ordered_setGroup (h : stream.Ordered) {name : String} {group : Group} :
    (stream.setGroup name group).Ordered := ⟨h.increasing, h.le_lastId⟩

theorem follows_setGroup {stream : Stream} {name : String} {group : Group} :
    stream.Follows (stream.setGroup name group) := ⟨Nat.le_refl _, fun _ _ h => .inl h⟩

theorem ordered_delete (h : stream.Ordered) (ids : List Nat) : (stream.delete ids).Ordered :=
  ⟨h.increasing.filter _, fun entry hmem => h.le_lastId entry (List.mem_filter.mp hmem).1⟩

theorem lookup_filter (keep : Nat → Bool) (entries : List (Nat × Fields)) (id : Nat) :
    (entries.filter (fun entry => keep entry.1)).lookup id =
      if keep id then entries.lookup id else none := by
  induction entries with
  | nil => simp
  | cons entry entries ih =>
    obtain ⟨there, fields⟩ := entry
    rw [List.filter_cons]
    by_cases hid : id = there
    · subst hid
      cases hkeep : keep id <;> simp [ih, hkeep]
    · have hne : (id == there) = false := by simpa using hid
      rw [List.lookup_cons, hne]
      split
      · rw [List.lookup_cons, hne]
        exact ih
      · exact ih

theorem entryAt_delete (stream : Stream) (ids : List Nat) (id : Nat) :
    (stream.delete ids).entryAt id = if id ∈ ids then none else stream.entryAt id := by
  have h := lookup_filter (fun id => decide (id ∉ ids)) stream.entries id
  unfold entryAt delete
  rw [h]
  by_cases hid : id ∈ ids <;> simp [hid]

theorem follows_delete {stream : Stream} {ids : List Nat} : stream.Follows (stream.delete ids) := by
  refine ⟨Nat.le_refl _, fun id fields h => .inl ?_⟩
  rw [entryAt_delete] at h
  split at h
  · cases h
  · exact h

theorem ordered_add (h : stream.Ordered) (fields : Fields) : (stream.add fields).Ordered := by
  refine ⟨List.pairwise_append.mpr ⟨h.increasing, List.pairwise_singleton _ _, ?_⟩, ?_⟩
  · intro entry hold new hnew
    have := h.le_lastId entry hold
    rw [List.mem_singleton.mp hnew]
    exact Nat.lt_succ_of_le this
  · intro entry hmem
    rcases List.mem_append.mp hmem with hold | hnew
    · exact Nat.le_trans (h.le_lastId entry hold) (Nat.le_succ _)
    · rw [List.mem_singleton.mp hnew]
      exact Nat.le_refl _

end Stream

def Script.Forward (script : Script K α) (key : K) : Prop :=
  ∀ db, (db.stream key).Ordered →
    (db.stream key).Follows ((script db).2.stream key) ∧ ((script db).2.stream key).Ordered

variable {db db' : Db K}

theorem Db.stream_congr {key : K} (h : db'.live key = db.live key) :
    db'.stream key = db.stream key := by
  unfold Db.stream
  rw [h]

theorem Script.Frames.forward {script : Script K α} {key : K} (h : script.Frames key) :
    script.Forward key := by
  intro db hordered
  rw [Db.stream_congr (h db)]
  exact ⟨.refl _, hordered⟩

theorem readStream_cases (key : K) (db : Db K) :
    readStream key db = (.ok (db.stream key), db) ∨
      ∃ error, readStream key db = (.error error, db) := by
  unfold readStream Db.stream
  rcases db.live key with _ | ⟨_ | _ | _ | _ | _, _⟩ <;> simp

theorem stream_of_not_readable {key : K} {next : Db K} {error : Error}
    (h : readStream key db = (.error error, next)) : db.stream key = Stream.empty := by
  unfold readStream at h
  unfold Db.stream
  split
  · next stream expireAt hlive =>
    rw [hlive] at h
    cases h
  · rfl

theorem forward_readStream {key : K} {next : Stream → Script K α}
    (h : ∀ db, (db.stream key).Ordered →
      (db.stream key).Follows ((next (db.stream key) db).2.stream key) ∧
        ((next (db.stream key) db).2.stream key).Ordered) :
    (readStream key >>= next).Forward key := by
  intro db hordered
  rcases readStream_cases key db with hok | ⟨error, herror⟩
  · rw [Script.bind_of_ok hok]
    exact h db hordered
  · rw [Script.bind_of_error herror]
    exact ⟨.refl _, hordered⟩

theorem readGroup_cases (key : K) (name : String) (db : Db K) :
    (∃ group, (db.stream key).groups name = some group ∧
        readGroup key name db = (.ok (db.stream key, group), db)) ∨
      ∃ error, readGroup key name db = (.error error, db) := by
  unfold readGroup
  rcases readStream_cases key db with hok | ⟨error, herror⟩
  · rw [Script.bind_of_ok hok]
    cases hgroup : (db.stream key).groups name with
    | none => exact .inr ⟨.noGroup, rfl⟩
    | some group => exact .inl ⟨group, rfl, rfl⟩
  · exact .inr ⟨error, Script.bind_of_error herror⟩

theorem forward_of_setGroup {script : Script K α} {key : K}
    (h : ∀ db, (script db).2.stream key = db.stream key ∨
      ∃ name group, (script db).2.stream key = (db.stream key).setGroup name group) :
    script.Forward key := by
  intro db hordered
  rcases h db with hsame | ⟨name, group, hset⟩
  · rw [hsame]
    exact ⟨.refl _, hordered⟩
  · rw [hset]
    exact ⟨Stream.follows_setGroup, Stream.ordered_setGroup hordered⟩

theorem forward_readList {next : List String → Script K α}
    (h : ∀ items db, (next items db).2.live key = db.live key ∨
      (next items db).2.stream key = Stream.empty) :
    (readList key >>= next).Forward key := by
  intro db hordered
  cases hread : readList key db with
  | mk reply db' =>
    cases reply with
    | error error =>
      rw [Script.bind_of_error hread]
      have hsame := reads_readList key db
      rw [hread] at hsame
      cases hsame
      exact ⟨.refl _, hordered⟩
    | ok items =>
      rw [Script.bind_of_ok hread]
      have hempty : db.stream key = Stream.empty ∧ db' = db := by
        unfold readList at hread
        unfold Db.stream
        split at hread <;> cases hread <;> simp_all
      obtain ⟨hempty, rfl⟩ := hempty
      rcases h items db' with hlive | hnone
      · rw [Db.stream_congr hlive]
        exact ⟨.refl _, hordered⟩
      · rw [hnone, hempty]
        exact ⟨.refl _, Stream.ordered_empty⟩

theorem readStream_eq_ok {key : K} (h : readStream key db = (.ok stream, db')) :
    stream = db.stream key ∧ db' = db := by
  rcases readStream_cases key db with hok | ⟨error, herror⟩
  · rw [hok] at h
    cases h
    exact ⟨rfl, rfl⟩
  · rw [herror] at h
    cases h

variable {name : String}

theorem readGroup_eq_ok {key : K} {read : Stream × Group}
    (h : readGroup key name db = (.ok read, db')) :
    read.1 = db.stream key ∧ (db.stream key).groups name = some read.2 ∧ db' = db := by
  rcases readGroup_cases key name db with ⟨group, hgroup, hok⟩ | ⟨error, herror⟩
  · rw [hok] at h
    cases h
    exact ⟨rfl, hgroup, rfl⟩
  · rw [herror] at h
    cases h

theorem xrangeOne_eq_ok {key : K} {fields : Option Fields}
    (h : xrangeOne key id db = (.ok fields, db')) : fields = (db.stream key).entryAt id := by
  obtain ⟨stream, db₁, hread, hrest⟩ := Script.bind_eq_ok h
  obtain ⟨rfl, -⟩ := readStream_eq_ok hread
  cases hrest
  rfl

variable {count : Nat}

theorem mem_of_range {after : Nat} {entry : Nat × Fields} (h : entry ∈ stream.range after count) :
    entry ∈ stream.entries :=
  List.mem_of_mem_filter (List.mem_of_mem_take h)

variable {entries : List (Nat × Fields)}

theorem mem_of_xrange {key : K} {after : Nat} (h : xrange key after count db = (.ok entries, db')) :
    ∀ entry ∈ entries, entry ∈ (db.stream key).entries := by
  obtain ⟨stream, db₁, hread, hrest⟩ := Script.bind_eq_ok h
  obtain ⟨rfl, -⟩ := readStream_eq_ok hread
  cases hrest
  exact fun _ => mem_of_range

section Writes

variable [DecidableEq K] {key : K}

@[simp] theorem stream_writeStream (key : K) (stream : Stream) (db : Db K) :
    (writeStream key stream db).2.stream key = stream := by
  show (db.store key (.stream stream)).stream key = stream
  simp [Db.stream]

@[simp] theorem stream_writeStream_bind (key : K) (stream : Stream) (value : α) (db : Db K) :
    ((do writeStream key stream; return value : Script K α) db).2.stream key = stream :=
  stream_writeStream key stream db

theorem forward_xdel (key : K) (id : Nat) : (xdel key id).Forward key := by
  refine forward_readStream fun db hordered => ?_
  cases (db.stream key).entryAt id with
  | none => exact ⟨.refl _, hordered⟩
  | some _ =>
    simp only [stream_writeStream_bind]
    exact ⟨Stream.follows_delete, Stream.ordered_delete hordered _⟩

theorem forward_xgroupCreate (key : K) (name : String) : (xgroupCreate key name).Forward key := by
  refine forward_readStream fun db hordered => ?_
  cases (db.stream key).groups name with
  | none =>
    simp only [stream_writeStream]
    exact ⟨Stream.follows_setGroup, Stream.ordered_setGroup hordered⟩
  | some _ => exact ⟨.refl _, hordered⟩

theorem forward_xack (key : K) (name : String) (id : Nat) : (xack key name id).Forward key := by
  refine forward_readStream fun db hordered => ?_
  cases (db.stream key).groups name with
  | none => exact ⟨.refl _, hordered⟩
  | some group =>
    simp only
    split
    · rw [stream_writeStream_bind]
      exact ⟨Stream.follows_setGroup, Stream.ordered_setGroup hordered⟩
    · exact ⟨.refl _, hordered⟩

theorem forward_xreadgroup (key : K) (name consumer : String) (count : Nat) :
    (xreadgroup key name consumer count).Forward key := by
  refine forward_of_setGroup fun db => ?_
  unfold xreadgroup
  rcases readGroup_cases key name db with ⟨group, -, hok⟩ | ⟨error, herror⟩
  · rw [Script.bind_of_ok hok]
    simp only
    rw [Script.bind_of_ok (show clock db = (.ok db.now, db) from rfl)]
    split
    · exact .inl rfl
    · exact .inr ⟨_, _, stream_writeStream_bind _ _ _ _⟩
  · rw [Script.bind_of_error herror]
    exact .inl rfl

theorem forward_xautoclaim (key : K) (name consumer : String) (minIdle count : Nat) :
    (xautoclaim key name consumer minIdle count).Forward key := by
  refine forward_of_setGroup fun db => ?_
  unfold xautoclaim
  rcases readGroup_cases key name db with ⟨group, -, hok⟩ | ⟨error, herror⟩
  · rw [Script.bind_of_ok hok]
    simp only
    rw [Script.bind_of_ok (show clock db = (.ok db.now, db) from rfl)]
    exact .inr ⟨_, _, stream_writeStream_bind _ _ _ _⟩
  · rw [Script.bind_of_error herror]
    exact .inl rfl

theorem Db.stream_storeList_self (db : Db K) (key : K) (items : List String) :
    (db.storeList key items).stream key = Stream.empty := by
  unfold Db.storeList Db.stream
  cases items <;> simp

theorem forward_lpush (key : K) (item : String) : (lpush key item).Forward key :=
  forward_readList fun items db => .inr (Db.stream_storeList_self db key (item :: items))

theorem forward_lrem (key : K) (item : String) : (lrem key item).Forward key := by
  refine forward_readList fun items db => ?_
  split
  · exact .inr (Db.stream_storeList_self db key _)
  · exact .inl rfl

theorem mem_of_xreadgroup {consumer : String}
    (h : xreadgroup key name consumer count db = (.ok entries, db')) :
    ∀ entry ∈ entries, entry ∈ (db.stream key).entries := by
  obtain ⟨⟨stream, group⟩, db₁, hread, hrest⟩ := Script.bind_eq_ok h
  obtain ⟨rfl, -, rfl⟩ := readGroup_eq_ok hread
  simp only at hrest
  rw [Script.bind_of_ok (show clock db₁ = (.ok db₁.now, db₁) from rfl)] at hrest
  split at hrest
  · cases hrest
    exact fun _ hmem => absurd hmem List.not_mem_nil
  · cases hrest
    exact fun _ => mem_of_range

theorem mem_of_xautoclaim {consumer : String} {minIdle : Nat}
    (h : xautoclaim key name consumer minIdle count db = (.ok entries, db')) :
    ∀ entry ∈ entries, entry ∈ (db.stream key).entries := by
  obtain ⟨⟨stream, group⟩, db₁, hread, hrest⟩ := Script.bind_eq_ok h
  obtain ⟨rfl, -, rfl⟩ := readGroup_eq_ok hread
  simp only at hrest
  rw [Script.bind_of_ok (show clock db₁ = (.ok db₁.now, db₁) from rfl)] at hrest
  cases hrest
  intro entry hmem
  obtain ⟨row, -, hrow⟩ := List.mem_filterMap.mp hmem
  obtain ⟨fields, hfields, rfl⟩ := Option.map_eq_some_iff.mp hrow
  exact Stream.mem_of_entryAt hfields

end Writes

end Redis
