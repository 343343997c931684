import AiBuddy.Queue.Maintenance
import AiBuddy.Redis.StreamOrder

/-!
# When stream maintenance spares running work

What the commands of one turn may do to another message, and to the type of the dead-letter
key. From it the pass spares running work exactly when it lists no due entry that is leased,
or cannot write the dead letter.
-/

namespace AiBuddy.Queue.Maintenance

open Redis JobLease

variable {target : Target} {messageId : Nat} {db db₁ db₂ db₃ : Db Key}

structure Keeps (target : Target) (messageId : Nat) (db db' : Db Key) : Prop where
  pending : ∀ row ∈ target.pending db, row.id = messageId → row ∈ target.pending db'
  entry : ∀ fields, target.entry db messageId = some fields →
    target.entry db' messageId = some fields

theorem Keeps.refl (db : Db Key) : Keeps target messageId db db :=
  ⟨fun _ hmem _ => hmem, fun _ h => h⟩

theorem Keeps.trans (h : Keeps target messageId db₁ db₂) (h' : Keeps target messageId db₂ db₃) :
    Keeps target messageId db₁ db₃ := by
  refine ⟨?_, ?_⟩
  · intro row hmem hid
    exact h'.pending row (h.pending row hmem hid) hid
  · intro fields hfields
    exact h'.entry fields (h.entry fields hfields)

theorem Keeps.of_stream
    (hgroups : ∀ group, (db₁.stream (.named target.stream)).groups target.group = some group →
      ∃ group', (db₂.stream (.named target.stream)).groups target.group = some group' ∧
        ∀ row ∈ group.pending, row.id = messageId → row ∈ group'.pending)
    (hentry : ∀ fields, (db₁.stream (.named target.stream)).entryAt messageId = some fields →
      (db₂.stream (.named target.stream)).entryAt messageId = some fields) :
    Keeps target messageId db₁ db₂ := by
  refine ⟨?_, hentry⟩
  intro row hmem hid
  unfold Target.pending at hmem ⊢
  split at hmem
  · next group hgroup =>
    obtain ⟨group', hgroup', hkept⟩ := hgroups group hgroup
    rw [hgroup']
    exact hkept row hmem hid
  · cases hmem

theorem Keeps.of_same
    (h : db₂.stream (.named target.stream) = db₁.stream (.named target.stream)) :
    Keeps target messageId db₁ db₂ := by
  apply Keeps.of_stream
  · intro group hgroup
    exact ⟨group, h ▸ hgroup, fun _ hmem _ => hmem⟩
  · intro fields hfields
    exact h ▸ hfields

variable {stream : Stream}

theorem entryAt_add {fields found : Fields} (h : stream.entryAt messageId = some found) :
    (stream.add fields).entryAt messageId = some found := by
  unfold Stream.entryAt Stream.add at *
  rw [List.lookup_append, h]
  rfl

theorem keeps_xadd (key : Key) (fields : Fields) :
    (xadd key fields).Along (Keeps target messageId) := by
  intro db
  by_cases hkey : (.named target.stream) = key
  · subst hkey
    unfold xadd
    rcases readStream_cases (.named target.stream) db with hok | ⟨error, herror⟩
    · rw [Script.bind_of_ok hok]
      apply Keeps.of_stream
      · intro group hgroup
        rw [stream_writeStream_bind]
        exact ⟨group, hgroup, fun _ hmem _ => hmem⟩
      · intro found hfound
        rw [stream_writeStream_bind]
        exact entryAt_add hfound
    · rw [Script.bind_of_error herror]
      exact .refl db
  · exact Keeps.of_same (Db.stream_congr (frames_xadd hkey fields db))

theorem keeps_xack {id : Nat} (h : id ≠ messageId) :
    (xack (.named target.stream) target.group id).Along (Keeps target messageId) := by
  intro db
  unfold xack
  rcases readStream_cases (.named target.stream) db with hok | ⟨error, herror⟩
  · rw [Script.bind_of_ok hok]
    cases hgroup : (db.stream (.named target.stream)).groups target.group with
    | none => exact .refl db
    | some group =>
      dsimp only
      split
      · apply Keeps.of_stream
        · intro group' hgroup'
          obtain rfl := Option.some.inj (hgroup.symm.trans hgroup')
          rw [stream_writeStream_bind]
          refine ⟨group.ack id, Function.update_self _ _ _, ?_⟩
          intro row hmem hid
          have hkept : row.id ≠ id := fun hsame => h (hsame.symm.trans hid)
          exact List.mem_filter.mpr ⟨hmem, decide_eq_true hkept⟩
        · intro fields hfields
          rw [stream_writeStream_bind]
          exact hfields
      · exact .refl db
  · rw [Script.bind_of_error herror]
    exact .refl db

theorem keeps_xdel {id : Nat} (h : id ≠ messageId) :
    (xdel (.named target.stream) id).Along (Keeps target messageId) := by
  intro db
  unfold xdel
  rcases readStream_cases (.named target.stream) db with hok | ⟨error, herror⟩
  · rw [Script.bind_of_ok hok]
    cases (db.stream (.named target.stream)).entryAt id with
    | none => exact .refl db
    | some _ =>
      apply Keeps.of_stream
      · intro group hgroup
        simp only [stream_writeStream_bind]
        exact ⟨group, hgroup, fun _ hmem _ => hmem⟩
      · intro fields hfields
        simp only [stream_writeStream_bind]
        rw [Stream.entryAt_delete, if_neg (by simpa using Ne.symm h)]
        exact hfields
  · rw [Script.bind_of_error herror]
    exact .refl db

theorem streamable_of_readStream {key : Key} (h : readStream key db = (.ok stream, db)) :
    Streamable key db := by
  unfold readStream at h
  unfold Streamable Db.kind
  split at h
  · next hnone =>
    rw [hnone]
    exact .inl rfl
  · next hstream =>
    rw [hstream]
    exact .inr rfl
  · cases h

theorem streamable_writeStream {key other : Key} :
    (writeStream other stream).Along fun db db' => Streamable key db → Streamable key db' := by
  intro db hkey
  show Streamable key (db.store other (.stream stream))
  unfold Streamable Db.kind at hkey ⊢
  by_cases hsame : key = other
  · subst hsame
    rw [Db.live_store_self]
    exact .inr rfl
  · rw [Db.live_store_of_ne db hsame]
    exact hkey

variable {α : Type}

section Streamable

variable (key : Key)

theorem streamable_trans (db₁ db₂ db₃ : Db Key) (h : Streamable key db₁ → Streamable key db₂)
    (h' : Streamable key db₂ → Streamable key db₃) : Streamable key db₁ → Streamable key db₃ :=
  fun hkey => h' (h hkey)

theorem streamable_reads {script : Script Key α} (h : script.Reads) :
    script.Along fun db db' => Streamable key db → Streamable key db' :=
  h.along fun _ => id

theorem streamable_xadd (other : Key) (fields : Fields) :
    (xadd other fields).Along fun db db' => Streamable key db → Streamable key db' := by
  refine Script.Along.bind (streamable_trans key) (streamable_reads key (reads_readStream other)) ?_
  intro stream
  refine Script.Along.bind (streamable_trans key) streamable_writeStream ?_
  exact fun _ _ => id

theorem streamable_xack (other : Key) (group : String) (id : Nat) :
    (xack other group id).Along fun db db' => Streamable key db → Streamable key db' := by
  refine Script.Along.bind (streamable_trans key) (streamable_reads key (reads_readStream other)) ?_
  intro stream
  cases stream.groups group with
  | none => exact fun _ hkey => hkey
  | some found =>
    dsimp only
    split
    · refine Script.Along.bind (streamable_trans key) streamable_writeStream ?_
      exact fun _ _ hkey => hkey
    · exact fun _ hkey => hkey

theorem streamable_xdel (other : Key) (id : Nat) :
    (xdel other id).Along fun db db' => Streamable key db → Streamable key db' := by
  refine Script.Along.bind (streamable_trans key) (streamable_reads key (reads_readStream other)) ?_
  intro stream
  cases stream.entryAt id with
  | none => exact fun _ hkey => hkey
  | some found =>
    refine Script.Along.bind (streamable_trans key) streamable_writeStream ?_
    exact fun _ _ hkey => hkey

end Streamable

variable {item : PendingItem}

section Turn

variable {rel : Db Key → Db Key → Prop}

theorem along_attempt {script : Script Key α} (h : script.Along rel) : (attempt script).Along rel :=
    h

theorem reads_attempt {script : Script Key α} (h : script.Reads) : (attempt script).Reads := h

theorem along_deadLetterPending (hrefl : ∀ db, rel db db)
    (htrans : ∀ db₁ db₂ db₃, rel db₁ db₂ → rel db₂ db₃ → rel db₁ db₃)
    (hxadd : ∀ fields, (xadd (.named target.deadLetterStream) fields).Along rel)
    {item : PendingItem} : (target.deadLetterPending item).Along rel := by
  have hread : (attempt (xrangeOne (.named target.stream) item.messageId)).Reads :=
    reads_attempt (reads_xrangeOne _ _)
  apply Script.Along.bind htrans (hread.along hrefl)
  intro row
  apply Script.Along.bind htrans (hxadd _)
  exact fun _ => hrefl

theorem along_reapItem (hrefl : ∀ db, rel db db)
    (htrans : ∀ db₁ db₂ db₃, rel db₁ db₂ → rel db₂ db₃ → rel db₁ db₃)
    (hxadd : ∀ fields, (xadd (.named target.deadLetterStream) fields).Along rel)
    (hxack : target.due item = true → (xack (.named target.stream) target.group
      item.messageId).Along rel)
    (hxdel : target.due item = true → (xdel (.named target.stream) item.messageId).Along rel) :
    (target.reapItem item).Along rel := by
  unfold Target.reapItem
  split
  · next hdue =>
    have hreap : (target.reap item).Along rel := by
      apply Script.Along.bind htrans (along_deadLetterPending hrefl htrans hxadd)
      intro _
      apply Script.Along.bind htrans (hxack hdue)
      intro _
      apply Script.Along.bind htrans (hxdel hdue)
      exact fun _ => hrefl
    apply Script.Along.bind htrans (along_attempt hreap)
    rintro (error | value)
    · exact hrefl
    · exact hrefl
  · exact hrefl

theorem keeps_reapItem (h : target.due item = true → item.messageId ≠ messageId) :
    (target.reapItem item).Along (Keeps target messageId) := by
  apply along_reapItem Keeps.refl (fun _ _ _ h h' => h.trans h')
  · exact keeps_xadd _
  · exact fun hdue => keeps_xack (h hdue)
  · exact fun hdue => keeps_xdel (h hdue)

theorem streamable_reapItem {key : Key} {item : PendingItem} :
    (target.reapItem item).Along fun db db' => Streamable key db → Streamable key db' := by
  apply along_reapItem (fun _ => id) (streamable_trans key)
  · exact streamable_xadd key _
  · exact fun _ => streamable_xack key _ _ _
  · exact fun _ => streamable_xdel key _ _

end Turn

theorem deadLetterPending_cases {item : PendingItem} {db : Db Key} :
    (Streamable (.named target.deadLetterStream) db ∧
        (target.deadLetterPending item db).1 = .ok ()) ∨
      ¬ Streamable (.named target.deadLetterStream) db ∧
        ∃ error, target.deadLetterPending item db = (.error error, db) := by
  have hread : attempt (xrangeOne (.named target.stream) item.messageId) db =
      (.ok (xrangeOne (.named target.stream) item.messageId db).1, db) :=
    congrArg (Prod.mk _) (reads_xrangeOne _ _ db)
  unfold Target.deadLetterPending
  rw [Script.bind_of_ok hread]
  by_cases hkind : Streamable (.named target.deadLetterStream) db
  · left
    refine ⟨hkind, ?_⟩
    unfold xadd
    rw [Script.bind_assoc, Script.bind_of_ok (readStream_of_kind hkind)]
    rfl
  · right
    refine ⟨hkind, ?_⟩
    unfold xadd
    rcases readStream_cases (.named target.deadLetterStream) db with hok | ⟨error, herror⟩
    · exact absurd (streamable_of_readStream hok) hkind
    · rw [Script.bind_assoc, Script.bind_of_error herror]
      exact ⟨error, rfl⟩

theorem reapItem_of_not_streamable (h : ¬ Streamable (.named target.deadLetterStream) db)
    {item : PendingItem} : target.reapItem item db = (.ok 0, db) := by
  unfold Target.reapItem
  split
  · rcases deadLetterPending_cases with ⟨hkind, -⟩ | ⟨-, error, herror⟩
    · exact absurd hkind h
    · have hreap : target.reap item db = (.error error, db) := Script.bind_of_error herror
      have hattempt : attempt (target.reap item) db = (.ok (.error error), db) := by
        rw [attempt, hreap]
      rw [Script.bind_of_ok hattempt]
      rfl
  · rfl

theorem reapItems_of_not_streamable (h : ¬ Streamable (.named target.deadLetterStream) db)
    {items : List PendingItem} : target.reapItems items db = (.ok 0, db) := by
  induction items with
  | nil => rfl
  | cons item rest ih =>
    unfold Target.reapItems
    rw [Script.bind_of_ok (reapItem_of_not_streamable h), Script.bind_of_ok ih]
    rfl

theorem deadLettered_of_not_streamable (h : ¬ Streamable (.named target.deadLetterStream) db)
    {items : List PendingItem} : target.deadLettered items db = [] := by
  induction items with
  | nil => rfl
  | cons item rest ih =>
    unfold Target.deadLettered
    rw [reapItem_of_not_streamable h]
    rcases deadLetterPending_cases with ⟨hkind, -⟩ | ⟨-, error, herror⟩
    · exact absurd hkind h
    · rw [herror]
      simp only [ih, ite_self]

variable {items : List PendingItem}

theorem keeps_reapItems (h : ∀ item ∈ items, target.due item = true → item.messageId ≠ messageId) :
    (target.reapItems items).Along (Keeps target messageId) := by
  induction items with
  | nil => exact Keeps.refl
  | cons item rest ih =>
    have hrest := ih fun other hmem => h other (List.mem_cons_of_mem _ hmem)
    apply Script.Along.bind (fun _ _ _ h h' => h.trans h')
      (keeps_reapItem (h item List.mem_cons_self))
    intro _
    apply Script.Along.bind (fun _ _ _ h h' => h.trans h') hrest
    exact fun _ => Keeps.refl

theorem due_of_mem_deadLettered (h : messageId ∈ target.deadLettered items db) :
    ∃ item ∈ items, target.due item = true ∧ item.messageId = messageId := by
  induction items generalizing db with
  | nil => cases h
  | cons item rest ih =>
    unfold Target.deadLettered at h
    have hlater : messageId ∈ target.deadLettered rest (target.reapItem item db).2 →
        ∃ other ∈ item :: rest, target.due other = true ∧ other.messageId = messageId := by
      intro hmem
      obtain ⟨other, hother, hfound⟩ := ih hmem
      exact ⟨other, List.mem_cons_of_mem _ hother, hfound⟩
    dsimp only at h
    split at h
    · next hdue =>
      split at h
      · rcases List.mem_cons.mp h with rfl | hmem
        · exact ⟨item, List.mem_cons_self, hdue, rfl⟩
        · exact hlater hmem
      · exact hlater h
    · exact hlater h

theorem mem_deadLettered (hmem : item ∈ items) (hdue : target.due item = true)
    (h : Streamable (.named target.deadLetterStream) db) :
    item.messageId ∈ target.deadLettered items db := by
  induction items generalizing db with
  | nil => cases hmem
  | cons first rest ih =>
    have hnext : Streamable (.named target.deadLetterStream) (target.reapItem first db).2 :=
      streamable_reapItem db h
    have hlater : item ∈ rest →
        item.messageId ∈ target.deadLettered rest (target.reapItem first db).2 :=
      fun hrest => ih hrest hnext
    unfold Target.deadLettered
    dsimp only
    rcases List.mem_cons.mp hmem with rfl | hrest
    · rw [if_pos hdue]
      rcases deadLetterPending_cases with ⟨-, hok⟩ | ⟨hkind, -⟩
      · rw [hok]
        exact List.mem_cons_self
      · exact absurd h hkind
    · split
      · split
        · exact List.mem_cons_of_mem _ (hlater hrest)
        · exact hlater hrest
      · exact hlater hrest

theorem reads_pendingItems : target.pendingItems.Reads := by
  refine (reads_xpendingRange _ _ _).bind fun rows => ?_
  refine reads_clock.bind fun now => ?_
  exact fun _ => rfl

theorem reapStuckStream_state {target : Target} {db : Db Key} :
    (target.reapStuckStream db).2 = (target.reapItems (target.listed db) db).2 := by
  have hpending : attempt target.pendingItems db = (.ok (target.pendingItems db).1, db) :=
    congrArg (Prod.mk _) (reads_pendingItems db)
  unfold Target.reapStuckStream Target.listed
  rw [Script.bind_of_ok hpending]
  split <;> rw [Script.bind_apply] <;> split <;> simp_all

theorem pending_of_listed (h : item ∈ target.listed db) :
    ∃ row ∈ target.pending db, row.id = item.messageId := by
  unfold Target.listed Target.pendingItems xpendingRange at h
  rw [Script.bind_assoc] at h
  rcases readGroup_cases (.named target.stream) target.group db with
    ⟨group, hgroup, hok⟩ | ⟨error, herror⟩
  · rw [Script.bind_of_ok hok] at h
    obtain ⟨row, hrow, rfl⟩ := List.mem_map.mp h
    refine ⟨row, ?_, rfl⟩
    unfold Target.pending
    rw [hgroup]
    exact List.mem_of_mem_take hrow
  · rw [Script.bind_of_error herror] at h
    cases h

/-- The pass spares running work exactly if none of the entries that it lists and finds stuck has
an unexpired lease held for it, or the key of the dead-letter stream holds another type. -/
theorem spares_running_iff (target : Target) (events : Nat → EventEnvelope) (db : Db Key) :
    SparesRunning target events db ↔
      (∀ item ∈ target.listed db, target.due item = true →
        heldFor db (events item.messageId) item.messageId = false) ∨
      ¬ Streamable (.named target.deadLetterStream) db := by
  constructor
  · intro hspares
    by_cases hkind : Streamable (.named target.deadLetterStream) db
    · left
      intro item hmem hdue
      by_contra hheld
      obtain ⟨row, hrow, hid⟩ := pending_of_listed hmem
      have hleased : heldFor db (events row.id) row.id = true := by
        rw [hid]
        exact eq_true_of_ne_false hheld
      apply (hspares row hrow hleased).1
      rw [hid]
      exact mem_deadLettered hmem hdue hkind
    · exact .inr hkind
  · rintro (hfree | hkind) row hrow hheld
    · have hother : ∀ item ∈ target.listed db, target.due item = true →
        item.messageId ≠ row.id := by
        intro item hmem hdue hid
        have := hfree item hmem hdue
        rw [hid, hheld] at this
        cases this
      have hkept : Keeps target row.id db (target.reapStuckStream db).2 := by
        rw [reapStuckStream_state]
        exact keeps_reapItems hother db
      refine ⟨?_, hkept.pending row hrow rfl, hkept.entry⟩
      intro hdead
      obtain ⟨item, hmem, hdue, hid⟩ := due_of_mem_deadLettered hdead
      exact hother item hmem hdue hid
    · have hstate : (target.reapStuckStream db).2 = db := by
        rw [reapStuckStream_state, reapItems_of_not_streamable hkind]
      rw [deadLettered_of_not_streamable hkind, hstate]
      exact ⟨List.not_mem_nil, hrow, fun _ hfields => hfields⟩

/-! An entry that is leased and has just been delivered for the eighth time. -/

def sampleTarget : Target where
  stream := "conversation:processing"
  group := "conversation-processors"
  deadLetterStream := "conversation:dead-letter"
  dumps _ := ""

def sampleEvent : EventEnvelope where
  eventId := "e1"
  eventType := "conversation.processing.requested"
  correlationId := "c1"
  userId := "u1"
  spaceId := "s1"
  conversationId := "c1"
  createdAt := "2025-01-01T00:00:00Z"

def sampleDb : Db Key where
  now := 100
  find
    | .named "conversation:processing" =>
      some ⟨.stream
        { entries := [(1, [("event", "e1")])]
          lastId := 1
          groups := fun name =>
            if name = "conversation-processors" then
              some ⟨1, [⟨1, "worker", 100, 8⟩]⟩
            else none }, none⟩
    | .jobLease "conversation.processing.requested|conversation:c1" =>
      some ⟨.string (recordText "worker" "7" "1-0" "e1" "conversation.processing.requested" "0"
        "90"),
        some 90000⟩
    | _ => none

/-- The worker has renewed its lease at time 90, and the pass at time 100 dead-letters, acknowledges
and deletes what it is working on. -/
theorem leased_entry_reaped :
    heldFor sampleDb sampleEvent 1 = true ∧
      sampleTarget.deadLettered (sampleTarget.listed sampleDb) sampleDb = [1] ∧
      sampleTarget.pending (sampleTarget.reapStuckStream sampleDb).2 = [] ∧
      sampleTarget.entry (sampleTarget.reapStuckStream sampleDb).2 1 = none ∧
      ¬ SparesRunning sampleTarget (fun _ => sampleEvent) sampleDb := by
  have hheld : heldFor sampleDb sampleEvent 1 = true := by decide +kernel
  have hdead : sampleTarget.deadLettered (sampleTarget.listed sampleDb) sampleDb = [1] := by
    decide +kernel
  refine ⟨hheld, hdead, by decide +kernel, by decide +kernel, ?_⟩
  intro hspares
  have hrow : (⟨1, "worker", 100, 8⟩ : PendingRow) ∈ sampleTarget.pending sampleDb := by
    decide +kernel
  apply (hspares _ hrow hheld).1
  rw [hdead]
  exact List.mem_cons_self

end AiBuddy.Queue.Maintenance
