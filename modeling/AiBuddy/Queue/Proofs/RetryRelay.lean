import AiBuddy.Queue.RetryRelay
import AiBuddy.Queue.Proofs.Maintenance

/-!
# What the retry relay comes to

A pass takes the entries of its window off the stream, up to the first one that raises, but for
those that are early. Copies that go back to the retry stream itself come after everything that
was there, so that an entry is reached exactly if what is in front of it never raises and fewer
than fifty of it are early.
-/

namespace AiBuddy.Queue.RetryRelay

open Redis JobLease Maintenance

variable {relay : Relay} {db db₁ db₂ : Db Key} {entry : Nat × Fields}

variable {ids : List Nat} {count : Nat} {before after : List (Nat × Fields)}
  {published : List Publication} {publication : Publication}

namespace Relay

theorem streamable_back {α : Type} {key other : Key} {next : Stream → Script Key α}
    (hframes : key ≠ other → (readStream other >>= next).Frames key)
    (h : Streamable key ((readStream other >>= next) db).2) : Streamable key db := by
  by_cases hkey : key = other
  · subst hkey
    rcases readStream_cases key db with hok | ⟨error, herror⟩
    · exact streamable_of_readStream hok
    · rwa [Script.bind_of_error herror] at h
  · have hlive := hframes hkey db
    unfold Streamable Db.kind at h ⊢
    rwa [hlive] at h

theorem streamable_xadd_iff (key other : Key) (fields : Fields) (db : Db Key) :
    Streamable key (xadd other fields db).2 ↔ Streamable key db :=
  ⟨streamable_back fun hne => frames_xadd hne fields, streamable_xadd key other fields db⟩

theorem streamable_xdel_iff (key other : Key) (id : Nat) (db : Db Key) :
    Streamable key (xdel other id db).2 ↔ Streamable key db :=
  ⟨streamable_back fun hne => frames_xdel hne id, streamable_xdel key other id db⟩

structure Swept (relay : Relay) (ids : List Nat) (db db' : Db Key) : Prop where
  streamable : ∀ key, Streamable key db' ↔ Streamable key db
  ordered : (relay.retries db).Ordered → (relay.retries db').Ordered
  lastId_le : (relay.retries db).lastId ≤ (relay.retries db').lastId
  entries : ∃ copies, (relay.retries db').entries =
      (relay.retries db).entries.filter (·.1 ∉ ids) ++ copies ∧
    ∀ copy ∈ copies, (relay.retries db).lastId < copy.1

theorem Swept.refl (db : Db Key) : Swept relay [] db db :=
  ⟨fun _ => Iff.rfl, id, Nat.le_refl _, [], by simp, nofun⟩

theorem filter_append_ids (entries : List (Nat × Fields)) (ids ids' : List Nat) :
    entries.filter (·.1 ∉ ids ++ ids') = (entries.filter (·.1 ∉ ids)).filter (·.1 ∉ ids') := by
  rw [List.filter_filter]
  apply List.filter_congr
  intro entry _
  simp [Bool.and_comm]

theorem Swept.trans {ids' : List Nat} (h : Swept relay ids db db₁) (h' : Swept relay ids' db₁ db₂) :
    Swept relay (ids ++ ids') db db₂ := by
  obtain ⟨copies, hentries, hnew⟩ := h.entries
  obtain ⟨copies', hentries', hnew'⟩ := h'.entries
  refine ⟨fun key => (h'.streamable key).trans (h.streamable key),
    fun hord => h'.ordered (h.ordered hord), Nat.le_trans h.lastId_le h'.lastId_le,
    copies.filter (·.1 ∉ ids') ++ copies', ?_, ?_⟩
  · rw [hentries', hentries, List.filter_append, filter_append_ids, List.append_assoc]
  · intro copy hmem
    rcases List.mem_append.mp hmem with hold | hcopy
    · exact hnew copy (List.mem_of_mem_filter hold)
    · exact Nat.lt_of_le_of_lt h.lastId_le (hnew' copy hcopy)

theorem Swept.of_same (hstreamable : ∀ key, Streamable key db₁ ↔ Streamable key db)
    (h : relay.retries db₁ = relay.retries db) : Swept relay [] db db₁ := by
  refine ⟨hstreamable, fun hord => h ▸ hord, by rw [h], [], ?_, nofun⟩
  rw [h]
  simp

theorem swept_xadd (relay : Relay) (key : Key) (fields : Fields) (db : Db Key) :
    Swept relay [] db (xadd key fields db).2 := by
  have hstreamable := fun other => streamable_xadd_iff other key fields db
  by_cases hkey : (.named relay.retryStream) = key
  · subst hkey
    unfold xadd at hstreamable ⊢
    rcases readStream_cases (.named relay.retryStream) db with hok | ⟨error, herror⟩
    · rw [Script.bind_of_ok hok] at hstreamable ⊢
      have hstream : relay.retries ((do
          writeStream (.named relay.retryStream) ((db.stream (.named relay.retryStream)).add fields)
          return (db.stream (.named relay.retryStream)).lastId + 1 : Script Key Nat) db).2 =
            (relay.retries db).add fields := stream_writeStream_bind _ _ _ _
      refine ⟨hstreamable, fun hord => ?_, ?_, [((relay.retries db).lastId + 1, fields)], ?_, ?_⟩
      · rw [hstream]
        exact Stream.ordered_add hord fields
      · rw [hstream]
        exact Nat.le_succ _
      · rw [hstream]
        simp [Stream.add]
      · intro copy hmem
        rw [List.mem_singleton.mp hmem]
        exact Nat.lt_succ_self _
    · rw [Script.bind_of_error herror]
      exact .refl db
  · exact Swept.of_same hstreamable (Db.stream_congr (frames_xadd hkey fields db))

theorem swept_xdel (relay : Relay) (id : Nat)
    (hkind : Streamable (.named relay.retryStream) db) :
    ∃ deleted db', xdel (.named relay.retryStream) id db = (.ok deleted, db') ∧
      Swept relay [id] db db' := by
  have hstreamable := fun other => streamable_xdel_iff other (.named relay.retryStream) id db
  unfold xdel at hstreamable ⊢
  rw [Script.bind_of_ok (readStream_of_kind hkind)] at hstreamable ⊢
  cases hentry : (db.stream (.named relay.retryStream)).entryAt id with
  | none =>
    refine ⟨0, db, rfl, fun _ => Iff.rfl, fun hord => hord, Nat.le_refl _, [], ?_, nofun⟩
    rw [List.append_nil, List.filter_eq_self.mpr]
    intro entry hmem
    have hother := List.lookup_eq_none_iff.mp hentry entry hmem
    rw [bne_iff_ne] at hother
    simp only [List.mem_singleton, decide_eq_true_eq]
    exact fun heq => hother heq.symm
  | some fields =>
    rw [hentry] at hstreamable
    have hkinds : ∀ other, Streamable other (writeStream (.named relay.retryStream)
        ((db.stream (.named relay.retryStream)).delete [id]) db).2 ↔ Streamable other db :=
      hstreamable
    have hstream : relay.retries (writeStream (.named relay.retryStream)
        ((db.stream (.named relay.retryStream)).delete [id]) db).2 =
          (relay.retries db).delete [id] := stream_writeStream _ _ _
    refine ⟨1, (writeStream (.named relay.retryStream)
      ((db.stream (.named relay.retryStream)).delete [id]) db).2, rfl, hkinds,
      fun hord => ?_, ?_, [], ?_, nofun⟩
    · rw [hstream]
      exact Stream.ordered_delete hord [id]
    · rw [hstream]
      exact Nat.le_refl _
    · rw [hstream, List.append_nil]
      rfl

theorem raises_congr (h : ∀ key, Streamable key db₁ ↔ Streamable key db) :
    relay.Raises db₁ entry ↔ relay.Raises db entry := by
  unfold Raises
  rw [h]

theorem relayEntry_early (h : relay.Early entry.2) :
    relay.relayEntry entry db = (.ok none, db) := by
  unfold Early at h
  unfold relayEntry
  dsimp only
  rw [h]
  rfl

theorem relayEntry_raises (h : relay.Raises db entry) :
    ∃ error, relay.relayEntry entry db = (.error error, db) := by
  unfold relayEntry
  dsimp only
  rcases h with hnumber | ⟨hdue, htarget, hevent, hparse⟩
  · rw [hnumber]
    exact ⟨_, rfl⟩
  · rw [hdue]
    dsimp only
    rw [if_pos ⟨htarget, hevent⟩]
    cases hvalid : relay.validate (fieldOf entry.2 "event") with
    | none => exact ⟨_, rfl⟩
    | some event =>
      rcases hparse with hnone | hkind
      · rw [hnone] at hvalid
        cases hvalid
      · rcases readStream_cases (.named (fieldOf entry.2 "targetStream")) db with
          hok | ⟨error, herror⟩
        · exact absurd (streamable_of_readStream hok) hkind
        · refine ⟨error, ?_⟩
          have hadd : xadd (.named (relay.copy entry.1 entry.2 event).targetStream)
              [("event", relay.dump (relay.copy entry.1 entry.2 event).event)] db =
                (.error error, db) := Script.bind_of_error herror
          dsimp only
          rw [Script.bind_of_error hadd]

theorem relayEntry_takes (hkind : Streamable (.named relay.retryStream) db)
    (hraises : ¬ relay.Raises db entry) (hearly : ¬ relay.Early entry.2) :
    ∃ db', relay.relayEntry entry db = (.ok (relay.publication? entry), db') ∧
      Swept relay [entry.1] db db' := by
  unfold Raises at hraises
  unfold Early at hearly
  push Not at hraises
  obtain ⟨hnumber, hquiet⟩ := hraises
  have hdue : relay.later (notBefore entry.2) = some false := by
    rcases hlater : relay.later (notBefore entry.2) with _ | _ | _
    · exact absurd hlater hnumber
    · rfl
    · exact absurd hlater hearly
  unfold relayEntry publication?
  dsimp only
  rw [hdue]
  dsimp only
  by_cases hfields : fieldOf entry.2 "targetStream" ≠ "" ∧ fieldOf entry.2 "event" ≠ ""
  · rw [if_pos hfields, if_pos ⟨rfl, hfields⟩]
    obtain ⟨hparse, htarget⟩ := hquiet hdue hfields.1 hfields.2
    obtain ⟨event, hvalid⟩ := Option.ne_none_iff_exists'.mp hparse
    rw [hvalid]
    have hadd : xadd (.named (relay.copy entry.1 entry.2 event).targetStream)
        [("event", relay.dump (relay.copy entry.1 entry.2 event).event)] db =
          (.ok ((db.stream (.named (fieldOf entry.2 "targetStream"))).lastId + 1), _) :=
      Script.bind_of_ok (readStream_of_kind htarget)
    have hswept := swept_xadd relay
      (.named (relay.copy entry.1 entry.2 event).targetStream)
      [("event", relay.dump (relay.copy entry.1 entry.2 event).event)] db
    obtain ⟨deleted, db', hdel, hsweptDel⟩ :=
      swept_xdel relay entry.1 ((hswept.streamable _).mpr hkind)
    rw [hadd] at hswept hsweptDel hdel
    refine ⟨db', ?_, hswept.trans hsweptDel⟩
    dsimp only
    rw [Script.bind_of_ok hadd, Script.bind_of_ok hdel]
    rfl
  · rw [if_neg hfields, if_neg fun h => hfields h.2]
    obtain ⟨deleted, db', hdel, hswept⟩ := swept_xdel relay entry.1 hkind
    refine ⟨db', ?_, hswept⟩
    rw [Script.bind_of_ok hdel]
    rfl

def taken (relay : Relay) (db : Db Key) : List (Nat × Fields) → List (Nat × Fields)
  | [] => []
  | entry :: rest =>
    if relay.Raises db entry then []
    else if relay.Early entry.2 then taken relay db rest
    else entry :: taken relay db rest

theorem taken_congr (h : ∀ key, Streamable key db₁ ↔ Streamable key db)
    (entries : List (Nat × Fields)) : taken relay db₁ entries = taken relay db entries := by
  induction entries with
  | nil => rfl
  | cons entry rest ih =>
    unfold taken
    simp only [raises_congr h, ih]

theorem relayEntries_eq (hkind : Streamable (.named relay.retryStream) db)
    (entries : List (Nat × Fields)) :
    ∃ db', relay.relayEntries entries db =
        (.ok ((taken relay db entries).filterMap relay.publication?), db') ∧
      Swept relay ((taken relay db entries).map Prod.fst) db db' := by
  induction entries generalizing db with
  | nil => exact ⟨db, rfl, .refl db⟩
  | cons entry rest ih =>
    unfold relayEntries taken
    by_cases hraises : relay.Raises db entry
    · obtain ⟨error, herror⟩ := relayEntry_raises hraises
      have hattempt : attempt (relay.relayEntry entry) db = (.ok (.error error), db) := by
        unfold attempt
        rw [herror]
      rw [Script.bind_of_ok hattempt, if_pos hraises]
      exact ⟨db, rfl, .refl db⟩
    · rw [if_neg hraises]
      by_cases hearly : relay.Early entry.2
      · have hattempt : attempt (relay.relayEntry entry) db = (.ok (.ok none), db) := by
          unfold attempt
          rw [relayEntry_early hearly]
        obtain ⟨db', hrest, hswept⟩ := ih hkind
        rw [Script.bind_of_ok hattempt, if_pos hearly]
        refine ⟨db', ?_, hswept⟩
        dsimp only
        rw [Script.bind_of_ok hrest]
        rfl
      · obtain ⟨db₁, hturn, hfirst⟩ := relayEntry_takes hkind hraises hearly
        have hattempt : attempt (relay.relayEntry entry) db =
            (.ok (.ok (relay.publication? entry)), db₁) := by
          unfold attempt
          rw [hturn]
        obtain ⟨db', hrest, hswept⟩ := ih ((hfirst.streamable _).mpr hkind)
        rw [taken_congr hfirst.streamable] at hrest hswept
        rw [Script.bind_of_ok hattempt, if_neg hearly]
        refine ⟨db', ?_, hfirst.trans hswept⟩
        dsimp only
        rw [Script.bind_of_ok hrest]
        cases hpublication : relay.publication? entry <;> simp [hpublication]

theorem of_mem_taken {entries : List (Nat × Fields)} (h : entry ∈ taken relay db entries) :
    entry ∈ entries ∧ ¬ relay.Raises db entry ∧ ¬ relay.Early entry.2 := by
  induction entries with
  | nil => cases h
  | cons first rest ih =>
    unfold taken at h
    split at h
    · cases h
    · next hraises =>
      split at h
      · obtain ⟨hmem, hentry⟩ := ih h
        exact ⟨List.mem_cons_of_mem _ hmem, hentry⟩
      · next hearly =>
        rcases List.mem_cons.mp h with rfl | hlater
        · exact ⟨List.mem_cons_self, hraises, hearly⟩
        · obtain ⟨hmem, hentry⟩ := ih hlater
          exact ⟨List.mem_cons_of_mem _ hmem, hentry⟩

theorem passable_of_taken (h : entry ∈ taken relay db ((before ++ entry :: after).take count))
    (hnew : entry ∉ before) :
    (∀ other ∈ before, ¬ relay.Raises db other) ∧ before.length < count := by
  induction before generalizing count with
  | nil =>
    refine ⟨nofun, ?_⟩
    cases count with
    | zero => cases h
    | succ count => exact Nat.succ_pos count
  | cons first rest ih =>
    cases count with
    | zero => cases h
    | succ count =>
      rw [List.cons_append, List.take_succ_cons] at h
      have hrest : entry ∉ rest := fun hmem => hnew (List.mem_cons_of_mem _ hmem)
      have hfirst : entry ≠ first := by
        rintro rfl
        exact hnew List.mem_cons_self
      unfold taken at h
      split at h
      · cases h
      · next hraises =>
        have hlater : entry ∈ taken relay db ((rest ++ entry :: after).take count) := by
          split at h
          · exact h
          · rcases List.mem_cons.mp h with heq | hlater
            · exact absurd heq hfirst
            · exact hlater
        obtain ⟨hquiet, hcount⟩ := ih hlater hrest
        refine ⟨fun other hmem => ?_, Nat.succ_lt_succ hcount⟩
        rcases List.mem_cons.mp hmem with rfl | hother
        · exact hraises
        · exact hquiet other hother

theorem taken_of_passable (after : List (Nat × Fields))
    (hquiet : ∀ other ∈ before, ¬ relay.Raises db other)
    (hfew : before.countP (fun other => relay.Early other.2) < count)
    (hraises : ¬ relay.Raises db entry) (hearly : ¬ relay.Early entry.2) :
    ∃ other ∈ taken relay db ((before ++ entry :: after).take count),
      other ∈ before ∨ other = entry := by
  induction before generalizing count with
  | nil =>
    obtain ⟨count, rfl⟩ := Nat.exists_eq_succ_of_ne_zero (Nat.ne_of_gt hfew)
    refine ⟨entry, ?_, .inr rfl⟩
    rw [List.nil_append, List.take_succ_cons]
    unfold taken
    rw [if_neg hraises, if_neg hearly]
    exact List.mem_cons_self
  | cons first rest ih =>
    obtain ⟨count, rfl⟩ := Nat.exists_eq_succ_of_ne_zero (Nat.ne_zero_of_lt hfew)
    rw [List.cons_append, List.take_succ_cons]
    unfold taken
    rw [if_neg (hquiet first List.mem_cons_self)]
    by_cases hfirst : relay.Early first.2
    · rw [if_pos hfirst]
      rw [List.countP_cons_of_pos (by simpa using hfirst)] at hfew
      obtain ⟨other, hmem, hwhere⟩ := ih
        (fun other hmem => hquiet other (List.mem_cons_of_mem _ hmem)) (Nat.lt_of_succ_lt_succ hfew)
      exact ⟨other, hmem, hwhere.imp_left (List.mem_cons_of_mem _)⟩
    · rw [if_neg hfirst]
      exact ⟨first, List.mem_cons_self, .inl List.mem_cons_self⟩

def takenNow (relay : Relay) (db : Db Key) : List (Nat × Fields) :=
  taken relay db ((relay.retries db).entries.take 50)

theorem relayPass_eq (hkind : Streamable (.named relay.retryStream) db) :
    ∃ db', relay.relayPass db = (.ok ((takenNow relay db).filterMap relay.publication?), db') ∧
      Swept relay ((takenNow relay db).map Prod.fst) db db' := by
  have hread : attempt (xrangeFirst (.named relay.retryStream) 50) db =
      (.ok (.ok ((relay.retries db).entries.take 50)), db) := by
    unfold attempt xrangeFirst
    rw [Script.bind_of_ok (readStream_of_kind hkind)]
    rfl
  unfold relayPass
  rw [Script.bind_of_ok hread]
  exact relayEntries_eq hkind _

/-- What passes come to: the entries under these ids have been taken off, each from behind entries
that hold nothing back, and those with something to publish have been published. -/
structure Passed (relay : Relay) (db : Db Key) (ids : List Nat) (published : List Publication)
    (db' : Db Key) : Prop where
  swept : Swept relay ids db db'
  quiet : ∀ entry ∈ (relay.retries db).entries, entry.1 ∈ ids →
    ¬ relay.Raises db entry ∧ ¬ relay.Early entry.2
  reached : ∀ before entry after, (relay.retries db).entries = before ++ entry :: after →
    entry.1 ∈ ids → relay.Passable db before
  published : ∀ entry ∈ (relay.retries db).entries, entry.1 ∈ ids → ∀ publication,
    relay.publication? entry = some publication → publication ∈ published

theorem eq_of_id {stream : Stream} (hordered : stream.Ordered) {other : Nat × Fields}
    (hentry : entry ∈ stream.entries) (hother : other ∈ stream.entries) (h : other.1 = entry.1) :
    other = entry := by
  have hfirst : stream.entryAt entry.1 = some entry.2 := hordered.entryAt_of_mem hentry
  have hsecond : stream.entryAt other.1 = some other.2 := hordered.entryAt_of_mem hother
  rw [h, hfirst] at hsecond
  exact Prod.ext h (Option.some.inj hsecond).symm

theorem Passed.refl (db : Db Key) : Passed relay db [] [] db :=
  ⟨.refl db, fun _ _ hmem => absurd hmem List.not_mem_nil,
    fun _ _ _ _ hmem => absurd hmem List.not_mem_nil,
    fun _ _ hmem => absurd hmem List.not_mem_nil⟩

theorem Passed.mem_left (h : Passed relay db ids published db₁)
    (hordered : (relay.retries db).Ordered) (hentry : entry ∈ (relay.retries db).entries)
    (hid : entry.1 ∈ (takenNow relay db₁).map Prod.fst) :
    entry ∈ takenNow relay db₁ ∧ entry.1 ∉ ids := by
  obtain ⟨copies, hentries, hnew⟩ := h.swept.entries
  obtain ⟨other, htaken, hsame⟩ := List.mem_map.mp hid
  have hmem := List.mem_of_mem_take (of_mem_taken htaken).1
  rw [hentries] at hmem
  rcases List.mem_append.mp hmem with hleft | hcopy
  · obtain ⟨hthere, hfree⟩ := List.mem_filter.mp hleft
    have heq : other = entry := eq_of_id hordered hentry hthere hsame
    subst heq
    exact ⟨htaken, of_decide_eq_true hfree⟩
  · have hle := hordered.le_lastId entry hentry
    have hlt := hnew other hcopy
    omega

theorem Passed.passable (h : Passed relay db ids published db₁)
    (hsub : ∀ other ∈ before, other ∈ (relay.retries db).entries)
    (hquiet : ∀ other ∈ before.filter (·.1 ∉ ids), ¬ relay.Raises db₁ other)
    (hfew : (before.filter (·.1 ∉ ids)).length < 50) : relay.Passable db before := by
  refine ⟨fun other hmem => ?_, ?_⟩
  · by_cases hid : other.1 ∈ ids
    · exact (h.quiet other (hsub other hmem) hid).1
    · rw [← raises_congr h.swept.streamable]
      exact hquiet other (List.mem_filter.mpr ⟨hmem, decide_eq_true hid⟩)
  · -- what has been taken was not early
    have hcount : before.countP (fun other => relay.Early other.2) =
        (before.filter (·.1 ∉ ids)).countP (fun other => relay.Early other.2) := by
      rw [List.countP_filter]
      apply List.countP_congr
      intro other hmem
      by_cases hid : other.1 ∈ ids
      · have hearly := (h.quiet other (hsub other hmem) hid).2
        simp [hearly]
      · simp [hid]
    rw [hcount]
    exact Nat.lt_of_le_of_lt List.countP_le_length hfew

theorem Passed.step (hordered : (relay.retries db).Ordered)
    (hkind : Streamable (.named relay.retryStream) db) (h : Passed relay db ids published db₁) :
    ∃ db₂, relay.relayPass db₁ =
        (.ok ((takenNow relay db₁).filterMap relay.publication?), db₂) ∧
      Passed relay db (ids ++ (takenNow relay db₁).map Prod.fst)
        (published ++ (takenNow relay db₁).filterMap relay.publication?) db₂ := by
  obtain ⟨db₂, hpass, hswept⟩ := relayPass_eq ((h.swept.streamable _).mpr hkind)
  refine ⟨db₂, hpass, h.swept.trans hswept, ?_, ?_, ?_⟩
  · intro entry hentry hid
    rcases List.mem_append.mp hid with hold | hnew
    · exact h.quiet entry hentry hold
    · obtain ⟨-, hraises, hearly⟩ := of_mem_taken (h.mem_left hordered hentry hnew).1
      exact ⟨fun hother => hraises ((raises_congr h.swept.streamable).mpr hother), hearly⟩
  · intro before entry after hsplit hid
    rcases List.mem_append.mp hid with hold | hnew
    · exact h.reached before entry after hsplit hold
    · have hentry : entry ∈ (relay.retries db).entries := by
        rw [hsplit]
        exact List.mem_append_right _ List.mem_cons_self
      obtain ⟨htaken, hfree⟩ := h.mem_left hordered hentry hnew
      obtain ⟨copies, hentries, -⟩ := h.swept.entries
      have hbefore : entry ∉ before.filter (·.1 ∉ ids) := by
        intro hmem
        have hincreasing := hordered.increasing
        rw [hsplit] at hincreasing
        have hlt := (List.pairwise_append.mp hincreasing).2.2 entry (List.mem_of_mem_filter hmem)
          entry List.mem_cons_self
        exact Nat.lt_irrefl _ hlt
      have hhead : (entry :: after).filter (·.1 ∉ ids) = entry :: after.filter (·.1 ∉ ids) :=
        List.filter_cons_of_pos (by simpa using hfree)
      unfold takenNow at htaken
      rw [hentries, hsplit, List.filter_append, hhead, List.append_assoc,
        List.cons_append] at htaken
      obtain ⟨hquiet, hfew⟩ := passable_of_taken htaken hbefore
      apply h.passable _ hquiet hfew
      intro other hmem
      rw [hsplit]
      exact List.mem_append_left _ hmem
  · intro entry hentry hid publication hpublication
    rcases List.mem_append.mp hid with hold | hnew
    · exact List.mem_append_left _ (h.published entry hentry hold publication hpublication)
    · apply List.mem_append_right
      exact List.mem_filterMap.mpr ⟨entry, (h.mem_left hordered hentry hnew).1, hpublication⟩

theorem relayPasses_passed (hordered : (relay.retries db).Ordered)
    (hkind : Streamable (.named relay.retryStream) db) (count : Nat) :
    ∃ ids published db', relay.relayPasses count db = (.ok published, db') ∧
      Passed relay db ids published db' := by
  induction count with
  | zero => exact ⟨[], [], db, rfl, .refl db⟩
  | succ count ih =>
    obtain ⟨ids, published, db₁, hpasses, hpassed⟩ := ih
    obtain ⟨db₂, hpass, hstep⟩ := hpassed.step hordered hkind
    refine ⟨_, _, db₂, ?_, hstep⟩
    unfold relayPasses
    rw [Script.bind_of_ok hpasses, Script.bind_of_ok hpass]
    rfl

theorem exists_idle (hordered : (relay.retries db).Ordered)
    (hkind : Streamable (.named relay.retryStream) db)
    (hpasses : relay.relayPasses count db = (.ok published, db₁))
    (h : Passed relay db ids published db₁) :
    ∃ count' ids' published' db', relay.relayPasses count' db = (.ok published', db') ∧
      Passed relay db ids' published' db' ∧
      ∀ other ∈ takenNow relay db', other ∉ (relay.retries db).entries := by
  -- the entries that are left get fewer
  induction hleft : ((relay.retries db).entries.filter (·.1 ∉ ids)).length
    using Nat.strong_induction_on generalizing count ids published db₁ with
  | _ left ih =>
    by_cases hidle : ∀ other ∈ takenNow relay db₁, other ∉ (relay.retries db).entries
    · exact ⟨count, ids, published, db₁, hpasses, h, hidle⟩
    · push Not at hidle
      obtain ⟨other, htaken, hthere⟩ := hidle
      have hid := List.mem_map_of_mem (f := Prod.fst) htaken
      obtain ⟨-, hfree⟩ := h.mem_left hordered hthere hid
      obtain ⟨db₂, hpass, hstep⟩ := h.step hordered hkind
      have hnext : relay.relayPasses (count + 1) db =
          (.ok (published ++ (takenNow relay db₁).filterMap relay.publication?), db₂) := by
        unfold relayPasses
        rw [Script.bind_of_ok hpasses, Script.bind_of_ok hpass]
        rfl
      apply ih _ _ hnext hstep rfl
      have hshorter : (((relay.retries db).entries.filter (·.1 ∉ ids)).filter
          (·.1 ∉ (takenNow relay db₁).map Prod.fst)).length <
            ((relay.retries db).entries.filter (·.1 ∉ ids)).length := by
        rw [List.length_filter_lt_length_iff_exists]
        exact ⟨other, List.mem_filter.mpr ⟨hthere, decide_eq_true hfree⟩, by simpa using hid⟩
      rw [← hleft, filter_append_ids]
      exact hshorter

theorem Passed.entryAt_of_left (h : Passed relay db ids published db₁)
    (hordered : (relay.retries db).Ordered) (hentry : entry ∈ (relay.retries db).entries)
    (hid : entry.1 ∉ ids) :
    (relay.retries db₁).entryAt entry.1 = some entry.2 := by
  obtain ⟨copies, hentries, -⟩ := h.swept.entries
  apply (h.swept.ordered hordered).entryAt_of_mem
  rw [hentries]
  exact List.mem_append_left _ (List.mem_filter.mpr ⟨hentry, decide_eq_true hid⟩)

theorem Passed.entryAt_of_taken (h : Passed relay db ids published db₁)
    (hordered : (relay.retries db).Ordered) (hentry : entry ∈ (relay.retries db).entries)
    (hid : entry.1 ∈ ids) :
    (relay.retries db₁).entryAt entry.1 = none := by
  obtain ⟨copies, hentries, hnew⟩ := h.swept.entries
  unfold Stream.entryAt
  rw [List.lookup_eq_none_iff]
  intro other hmem
  rw [hentries] at hmem
  rw [bne_iff_ne]
  rcases List.mem_append.mp hmem with hleft | hcopy
  · have hfree := of_decide_eq_true (List.mem_filter.mp hleft).2
    exact fun hsame => hfree (hsame ▸ hid)
  · have hle := hordered.le_lastId entry hentry
    have hlt := hnew other hcopy
    omega

theorem publication?_eq_some (h : relay.publication? entry = some publication) :
    relay.later (notBefore entry.2) = some false ∧ fieldOf entry.2 "targetStream" ≠ "" ∧
      fieldOf entry.2 "event" ≠ "" ∧ relay.validate (fieldOf entry.2 "event") ≠ none ∧
      publication.targetStream = fieldOf entry.2 "targetStream" := by
  unfold publication? at h
  split at h
  · next hfields =>
    obtain ⟨event, hvalid, rfl⟩ := Option.map_eq_some_iff.mp h
    refine ⟨hfields.1, hfields.2.1, hfields.2.2, ?_, rfl⟩
    rw [hvalid]
    exact Option.some_ne_none event
  · cases h

theorem raises_iff_of_publication (h : relay.publication? entry = some publication) :
    relay.Raises db entry ↔ ¬ Streamable (.named publication.targetStream) db := by
  obtain ⟨hdue, htarget, hevent, hvalid, hname⟩ := publication?_eq_some h
  rw [hname]
  unfold Raises
  rw [hdue]
  simp only [reduceCtorEq, false_or, true_and]
  exact ⟨fun hraises => hraises.2.2.resolve_left hvalid,
    fun hkind => ⟨htarget, hevent, .inr hkind⟩⟩

theorem not_early_of_publication (h : relay.publication? entry = some publication) :
    ¬ relay.Early entry.2 := by
  unfold Early
  rw [(publication?_eq_some h).1]
  exact nofun

theorem passable_of_drains (hordered : (relay.retries db).Ordered)
    (hkind : Streamable (.named relay.retryStream) db) (h : relay.Drains db)
    (hsplit : (relay.retries db).entries = before ++ entry :: after)
    (hpublication : relay.publication? entry = some publication) :
    Streamable (.named publication.targetStream) db ∧ relay.Passable db before := by
  obtain ⟨count, published, -, hrelays⟩ := h
  obtain ⟨ids, published', db', hpasses, hpassed⟩ := relayPasses_passed hordered hkind count
  have hentry : entry ∈ (relay.retries db).entries := by
    rw [hsplit]
    exact List.mem_append_right _ List.mem_cons_self
  have hgone := (hrelays.due entry hentry publication hpublication).2
  rw [hpasses] at hgone
  have hid : entry.1 ∈ ids := by
    by_contra hleft
    rw [hpassed.entryAt_of_left hordered hentry hleft] at hgone
    cases hgone
  have hquiet := (hpassed.quiet entry hentry hid).1
  rw [raises_iff_of_publication hpublication, not_not] at hquiet
  exact ⟨hquiet, hpassed.reached before entry after hsplit hid⟩

theorem Passed.taken_of_idle (h : Passed relay db ids published db₁)
    (hidle : ∀ other ∈ takenNow relay db₁, other ∉ (relay.retries db).entries)
    (hsplit : (relay.retries db).entries = before ++ entry :: after)
    (hpassable : relay.Passable db before) (hraises : ¬ relay.Raises db entry)
    (hearly : ¬ relay.Early entry.2) : entry.1 ∈ ids := by
  by_contra hleft
  obtain ⟨copies, hentries, -⟩ := h.swept.entries
  have hhead : (entry :: after).filter (·.1 ∉ ids) = entry :: after.filter (·.1 ∉ ids) :=
    List.filter_cons_of_pos (by simpa using hleft)
  rw [hsplit, List.filter_append, hhead, List.append_assoc, List.cons_append] at hentries
  have hquiet : ∀ other ∈ before.filter (·.1 ∉ ids), ¬ relay.Raises db₁ other := by
    intro other hmem
    rw [raises_congr h.swept.streamable]
    exact hpassable.quiet other (List.mem_of_mem_filter hmem)
  have hfew : (before.filter (·.1 ∉ ids)).countP (fun other => relay.Early other.2) < 50 :=
    Nat.lt_of_le_of_lt List.filter_sublist.countP_le hpassable.few
  obtain ⟨other, htaken, hwhere⟩ := taken_of_passable (after.filter (·.1 ∉ ids) ++ copies) hquiet
    hfew (fun hthere => hraises ((raises_congr h.swept.streamable).mp hthere)) hearly
  rw [← hentries] at htaken
  apply hidle other htaken
  rw [hsplit]
  rcases hwhere with hbefore | rfl
  · exact List.mem_append_left _ (List.mem_of_mem_filter hbefore)
  · exact List.mem_append_right _ List.mem_cons_self

theorem drains_of_passable (hordered : (relay.retries db).Ordered)
    (hkind : Streamable (.named relay.retryStream) db)
    (hfree : ∀ before entry after, (relay.retries db).entries = before ++ entry :: after →
      ∀ publication, relay.publication? entry = some publication →
        Streamable (.named publication.targetStream) db ∧ relay.Passable db before) :
    relay.Drains db := by
  have hstart : relay.relayPasses 0 db = (.ok [], db) := rfl
  obtain ⟨count, ids, published, db', hpasses, hpassed, hidle⟩ :=
    exists_idle hordered hkind hstart (.refl db)
  refine ⟨count, published, congrArg Prod.fst hpasses, ?_⟩
  rw [hpasses]
  refine ⟨?_, ?_⟩
  · intro entry hentry publication hpublication
    obtain ⟨before, after, hsplit⟩ := List.append_of_mem hentry
    obtain ⟨htarget, hpassable⟩ := hfree before entry after hsplit publication hpublication
    have hraises : ¬ relay.Raises db entry := by
      rw [raises_iff_of_publication hpublication]
      exact not_not_intro htarget
    have hid := hpassed.taken_of_idle hidle hsplit hpassable hraises
      (not_early_of_publication hpublication)
    exact ⟨hpassed.published entry hentry hid publication hpublication,
      hpassed.entryAt_of_taken hordered hentry hid⟩
  · intro entry hentry hearly
    apply hpassed.entryAt_of_left hordered hentry
    intro hid
    exact (hpassed.quiet entry hentry hid).2 hearly

/-- Repeated passes publish every due entry that parses and leave every early one, exactly if none
of the former goes to a key of another type, or comes after an entry that raises or after fifty that
are early. -/
theorem drains_iff (relay : Relay) (db : Db Key) (hordered : (relay.retries db).Ordered) :
    relay.Drains db ↔
      ∀ before entry after, (relay.retries db).entries = before ++ entry :: after →
        ∀ publication, relay.publication? entry = some publication →
          Streamable (.named publication.targetStream) db ∧ relay.Passable db before := by
  by_cases hkind : Streamable (.named relay.retryStream) db
  · constructor
    · intro h before entry after hsplit publication hpublication
      exact passable_of_drains hordered hkind h hsplit hpublication
    · exact drains_of_passable hordered hkind
  · -- another type under the key of the retry stream: there is nothing to relay
    have hnone : (relay.retries db).entries = [] := by
      rcases readStream_cases (.named relay.retryStream) db with hok | ⟨error, herror⟩
      · exact absurd (streamable_of_readStream hok) hkind
      · unfold retries
        rw [stream_of_not_readable herror]
        rfl
    constructor
    · intro _ before entry after hsplit
      rw [hnone] at hsplit
      cases before <;> cases hsplit
    · intro _
      refine ⟨0, [], rfl, ?_, ?_⟩
      · intro entry hentry
        rw [hnone] at hentry
        cases hentry
      · intro entry hentry
        rw [hnone] at hentry
        cases hentry

/-! The relay at time 5. -/

/-- `model_dump_json` of an event without a payload. -/
def plainText (event : EventEnvelope) : String :=
  "\x7b\"eventId\":\"" ++ event.eventId ++ "\",\"eventType\":\"" ++ event.eventType ++
  "\",\"eventVersion\":" ++ event.eventVersion.repr ++ ",\"correlationId\":\"" ++
  event.correlationId ++ "\",\"causationId\":" ++
  (match event.causationId with | some id => "\"" ++ id ++ "\"" | none => "null") ++
  ",\"userId\":\"" ++ event.userId ++ "\",\"spaceId\":\"" ++ event.spaceId ++
  "\",\"conversationId\":\"" ++ event.conversationId ++ "\",\"payload\":\x7b\x7d,\"attempt\":" ++
  event.attempt.repr ++ ",\"createdAt\":\"" ++ event.createdAt ++ "\"\x7d"

def sampleRelay : Relay where
  retryStream := "buddy:conversation:retry"
  later text := (Text.decimal? text).map (5 < ·)
  validate text := if text = plainText sampleEvent then some sampleEvent else none
  dump := plainText
  newId _ := "5d9c9a0c-3f4e-4b52-9a4d-0d7d5f1c2b3a"

def sampleRetry : Fields :=
  [("event", plainText sampleEvent), ("error", "timeout"), ("notBefore", "4"),
    ("targetStream", "buddy:conversation:processing")]

def brokenRetry : Fields :=
  [("event", "\x7b"), ("notBefore", "4"), ("targetStream", "buddy:conversation:processing")]

def earlyRetry : Fields :=
  [("event", plainText sampleEvent), ("error", "timeout"), ("notBefore", "9"),
    ("targetStream", "buddy:conversation:processing")]

def retriesDb (entries : List Fields) : Db Key where
  now := 0
  find
    | .named "buddy:conversation:retry" =>
      some ⟨.stream ⟨(entries.zipIdx 1).map Prod.swap, entries.length, fun _ => none⟩, none⟩
    | _ => none

/-- The due entry is published from behind an early one. -/
theorem drains_sample : sampleRelay.Drains (retriesDb [earlyRetry, sampleRetry]) := by
  apply (drains_iff sampleRelay (retriesDb [earlyRetry, sampleRetry])
    ⟨by decide +kernel, by decide +kernel⟩).mpr
  intro before entry after hsplit publication hpublication
  have hentries : (sampleRelay.retries (retriesDb [earlyRetry, sampleRetry])).entries =
      [(1, earlyRetry), (2, sampleRetry)] := rfl
  rw [hentries] at hsplit
  rcases before with _ | ⟨first, _ | ⟨second, rest⟩⟩
  · cases hsplit
    have hnone : sampleRelay.publication? (1, earlyRetry) = none := by decide +kernel
    rw [hnone] at hpublication
    cases hpublication
  · cases hsplit
    have htarget := (publication?_eq_some hpublication).2.2.2.2
    rw [htarget]
    refine ⟨by decide +kernel, ⟨?_, by decide +kernel⟩⟩
    intro other hmem
    rw [List.mem_singleton.mp hmem]
    decide +kernel
  · rcases rest with _ | ⟨third, rest⟩ <;> cases hsplit

/-- An event that does not parse stops every pass in front of the due entry, and so do fifty entries
that are early. -/
theorem held_back :
    ¬ sampleRelay.Drains (retriesDb [brokenRetry, sampleRetry]) ∧
      ¬ sampleRelay.Drains (retriesDb (List.replicate 50 earlyRetry ++ [sampleRetry])) := by
  constructor
  · intro hdrains
    obtain ⟨publication, hpublication⟩ : ∃ publication,
        sampleRelay.publication? (2, sampleRetry) = some publication :=
      Option.isSome_iff_exists.mp (by decide +kernel)
    have hsplit : (sampleRelay.retries (retriesDb [brokenRetry, sampleRetry])).entries =
        [(1, brokenRetry)] ++ [(2, sampleRetry)] := rfl
    have hreached := passable_of_drains
      ⟨by decide +kernel, by decide +kernel⟩ (by decide +kernel) hdrains hsplit hpublication
    exact absurd (hreached.2.quiet _ List.mem_cons_self) (by decide +kernel)
  · intro hdrains
    obtain ⟨publication, hpublication⟩ : ∃ publication,
        sampleRelay.publication? (51, sampleRetry) = some publication :=
      Option.isSome_iff_exists.mp (by decide +kernel)
    have hsplit : (sampleRelay.retries
        (retriesDb (List.replicate 50 earlyRetry ++ [sampleRetry]))).entries =
          ((List.replicate 50 earlyRetry).zipIdx 1).map Prod.swap ++ [(51, sampleRetry)] := rfl
    have hreached := passable_of_drains
      ⟨by decide +kernel, by decide +kernel⟩ (by decide +kernel) hdrains hsplit hpublication
    have hfew := hreached.2.few
    revert hfew
    decide +kernel

end Relay

end AiBuddy.Queue.RetryRelay
