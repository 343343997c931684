import AiBuddy.Queue.Proofs.Maintenance

/-!
# What a failing connection costs the dead-letter stream

A turn whose dead letter does not go through, or whose `XACK` does not reach Redis, settles
nothing. One whose `XRANGE` fails writes a note in place of the event, and settles all the same.
From the first pending list on every other turn keeps a message, so that the pass preserves the
events exactly if no listed message comes upon this.
-/

namespace AiBuddy.Queue.Maintenance

open Redis JobLease

variable {target : Target} {messageId : Nat} {db : Db Key}

variable {α : Type}

theorem along_apply {rel : Db Key → Db Key → Prop} {script : Script Key α}
    (hrefl : ∀ db, rel db db) (h : script.Along rel) (fate : Fate) :
    (fate.apply script).Along rel := by
  intro db
  cases fate with
  | answered => exact h db
  | unsent => exact hrefl db
  | unheard => exact h db

variable {fate : Fate}

theorem reads_apply {script : Script Key α} (h : script.Reads) : (fate.apply script).Reads := by
  intro db
  cases fate with
  | answered => exact h db
  | unsent => rfl
  | unheard => exact h db

theorem answered_of_ok {script : Script Key α} {value : α} {db' : Db Key}
    (h : fate.apply script db = (.ok value, db')) :
    fate = .answered ∧ script db = (.ok value, db') := by
  cases fate with
  | answered => exact ⟨rfl, h⟩
  | unsent => cases h
  | unheard => cases h

theorem state_apply {script : Script Key α} (h : fate ≠ .unsent) :
    (fate.apply script db).2 = (script db).2 := by
  cases fate with
  | answered => rfl
  | unsent => exact absurd rfl h
  | unheard => rfl

theorem reads_readUnder {target : Target} {fates : TurnFates} {item : PendingItem} :
    (target.readUnder fates item).Reads :=
  reads_apply (reads_xrangeOne _ _)

theorem deadLetterUnder_eq {target : Target} {fates : TurnFates} {item : PendingItem}
    {db : Db Key} :
    ∃ fields : Fields,
      fields.lookup "event" = some (target.rawEvent item (target.readUnder fates item db).1) ∧
      target.deadLetterUnder fates item db =
        (fates.write.apply (xadd (.named target.deadLetterStream) fields) >>=
          fun _ => pure () : Script Key Unit) db := by
  have hread : attempt (target.readUnder fates item) db =
      (.ok (target.readUnder fates item db).1, db) :=
    congrArg (Prod.mk _) (reads_readUnder db)
  unfold Target.deadLetterUnder
  rw [Script.bind_of_ok hread]
  exact ⟨_, rfl, rfl⟩

theorem keeps_deadLetterUnder (target : Target) (messageId : Nat) (fates : TurnFates)
    (item : PendingItem) :
    (target.deadLetterUnder fates item).Along (Keeps target messageId) := by
  intro db
  obtain ⟨fields, -, heq⟩ := deadLetterUnder_eq
  rw [heq]
  apply Script.Along.bind (fun _ _ _ h h' => h.trans h')
    (along_apply Keeps.refl (keeps_xadd _ _) _)
  exact fun _ => Keeps.refl

theorem mem_deadLetters_add {stream : Stream} {fields : Fields} {event : String}
    (h : fields.lookup "event" = some event) :
    event ∈ (stream.add fields).entries.filterMap (·.2.lookup "event") := by
  unfold Stream.add
  rw [List.filterMap_append]
  apply List.mem_append_right
  simp [h]

variable {fates : TurnFates} {item : PendingItem}

theorem mem_deadLetters {lettered : Db Key}
    (h : target.deadLetterUnder fates item db = (.ok (), lettered)) :
    target.rawEvent item (target.readUnder fates item db).1 ∈ target.deadLetters lettered := by
  obtain ⟨fields, hevent, heq⟩ := deadLetterUnder_eq
  rw [heq] at h
  obtain ⟨id, db₁, hwrite, hrest⟩ := Script.bind_eq_ok h
  cases hrest
  obtain ⟨-, hadd⟩ := answered_of_ok hwrite
  obtain ⟨stream, db₂, hread, hwritten⟩ := Script.bind_eq_ok hadd
  obtain ⟨rfl, rfl⟩ := readStream_eq_ok hread
  have hstream : lettered.stream (.named target.deadLetterStream) =
      (db₂.stream (.named target.deadLetterStream)).add fields := by
    rw [← stream_writeStream_bind (.named target.deadLetterStream)
      ((db₂.stream (.named target.deadLetterStream)).add fields) id db₂]
    exact congrArg (fun state : Db Key => state.stream (.named target.deadLetterStream))
      (congrArg Prod.snd hwritten).symm
  unfold Target.deadLetters
  rw [hstream]
  exact mem_deadLetters_add hevent

theorem deadLetterUnder_ok (hwrite : fates.write = .answered)
    (hkind : Streamable (.named target.deadLetterStream) db) {item : PendingItem} :
    ∃ lettered, target.deadLetterUnder fates item db = (.ok (), lettered) := by
  obtain ⟨fields, -, heq⟩ := deadLetterUnder_eq
  rw [heq, hwrite]
  unfold Fate.apply xadd
  rw [Script.bind_assoc, Script.bind_of_ok (readStream_of_kind hkind)]
  exact ⟨_, rfl⟩

theorem answered_of_deadLetterUnder {lettered : Db Key}
    (h : target.deadLetterUnder fates item db = (.ok (), lettered)) :
    fates.write = .answered ∧ Streamable (.named target.deadLetterStream) db := by
  obtain ⟨fields, -, heq⟩ := deadLetterUnder_eq
  rw [heq] at h
  obtain ⟨id, db₁, hwrite, -⟩ := Script.bind_eq_ok h
  obtain ⟨hanswered, hadd⟩ := answered_of_ok hwrite
  obtain ⟨stream, db₂, hread, -⟩ := Script.bind_eq_ok hadd
  obtain ⟨rfl, rfl⟩ := readStream_eq_ok hread
  exact ⟨hanswered, streamable_of_readStream hread⟩

def settling (target : Target) (fates : TurnFates) (item : PendingItem) : Script Key Unit := do
  let _ ← fates.ack.apply (xack (.named target.stream) target.group item.messageId)
  let _ ← fates.delete.apply (xdel (.named target.stream) item.messageId)

theorem reapItemUnder_state {fates : TurnFates} {item : PendingItem} {db : Db Key} :
    (target.reapItemUnder fates item db).2 =
      if target.due item then
        match target.deadLetterUnder fates item db with
        | (.ok _, lettered) => (settling target fates item lettered).2
        | (.error _, lettered) => lettered
      else db := by
  unfold Target.reapItemUnder
  split
  · have hreap : target.reapUnder fates item db =
        (target.deadLetterUnder fates item >>= fun _ => settling target fates item) db := rfl
    have hattempt : attempt (target.reapUnder fates item) db =
        (.ok (target.reapUnder fates item db).1, (target.reapUnder fates item db).2) := rfl
    rw [Script.bind_of_ok hattempt]
    have hstate : (target.reapUnder fates item db).2 =
        match target.deadLetterUnder fates item db with
        | (.ok _, lettered) => (settling target fates item lettered).2
        | (.error _, lettered) => lettered := by
      rw [hreap, Script.bind_apply]
      rcases target.deadLetterUnder fates item db with ⟨_ | _, lettered⟩ <;> rfl
    rw [← hstate]
    cases (target.reapUnder fates item db).1 <;> rfl
  · rfl

theorem keeps_settling (h : item.messageId ≠ messageId) :
    (settling target fates item).Along (Keeps target messageId) := by
  apply Script.Along.bind (fun _ _ _ h h' => h.trans h')
    (along_apply Keeps.refl (keeps_xack h) _)
  intro _
  apply Script.Along.bind (fun _ _ _ h h' => h.trans h')
    (along_apply Keeps.refl (keeps_xdel h) _)
  exact fun _ => Keeps.refl

theorem keeps_reapItemUnder (h : item.messageId ≠ messageId) :
    (target.reapItemUnder fates item).Along (Keeps target messageId) := by
  intro db
  have hletter := keeps_deadLetterUnder target messageId fates item db
  rw [reapItemUnder_state]
  split
  · split
    · next lettered heq =>
      rw [heq] at hletter
      exact hletter.trans (keeps_settling h lettered)
    · next lettered heq =>
      rw [heq] at hletter
      exact hletter
  · exact .refl db

/-- A message is kept by its own turn unless it is due, its dead letter goes through and its `XACK`
reaches Redis. -/
theorem keeps_own_turn
    (h : target.due item = true → (∃ lettered, target.deadLetterUnder fates item db =
      (.ok (), lettered)) → fates.ack = .unsent) :
    Keeps target item.messageId db (target.reapItemUnder fates item db).2 := by
  have hletter :=
    keeps_deadLetterUnder target item.messageId fates item db
  rw [reapItemUnder_state]
  split
  · next hdue =>
    split
    · next lettered heq =>
      have hack := h hdue ⟨lettered, heq⟩
      rw [heq] at hletter
      have hsettled : (settling target fates item lettered).2 = lettered := by
        unfold settling
        rw [hack]
        rfl
      rw [hsettled]
      exact hletter
    · next lettered heq =>
      rw [heq] at hletter
      exact hletter
  · exact .refl db

theorem streamable_deadLetterUnder (target : Target) (fates : TurnFates) (item : PendingItem)
    (key : Key) :
    (target.deadLetterUnder fates item).Along
      fun db db' => Streamable key db → Streamable key db' := by
  intro db
  obtain ⟨fields, -, heq⟩ := deadLetterUnder_eq
  rw [heq]
  apply Script.Along.bind (streamable_trans key)
    (along_apply (fun _ => id) (streamable_xadd key _ _) _)
  exact fun _ _ => id

theorem streamable_reapItemUnder {fates : TurnFates} {item : PendingItem} {key : Key} :
    (target.reapItemUnder fates item).Along
      fun db db' => Streamable key db → Streamable key db' := by
  intro db hkey
  have hletter := streamable_deadLetterUnder target fates item key db hkey
  rw [reapItemUnder_state]
  split
  · split
    · next lettered heq =>
      rw [heq] at hletter
      have hsettling : (settling target fates item).Along
          fun db db' => Streamable key db → Streamable key db' := by
        apply Script.Along.bind (streamable_trans key)
          (along_apply (fun _ => id) (streamable_xack key _ _ _) _)
        intro _
        apply Script.Along.bind (streamable_trans key)
          (along_apply (fun _ => id) (streamable_xdel key _ _) _)
        exact fun _ _ => id
      exact hsettling lettered hletter
    · next lettered heq =>
      rw [heq] at hletter
      exact hletter
  · exact hkey

theorem deadLetterUnder_of_not_streamable (fates : TurnFates) (item : PendingItem)
    (h : ¬ Streamable (.named target.deadLetterStream) db) :
    (target.deadLetterUnder fates item db).2 = db := by
  obtain ⟨fields, -, heq⟩ := deadLetterUnder_eq
  have hadd : ∃ error, xadd (.named target.deadLetterStream) fields db = (.error error, db) := by
    rcases readStream_cases (.named target.deadLetterStream) db with hok | ⟨error, herror⟩
    · exact absurd (streamable_of_readStream hok) h
    · exact ⟨error, Script.bind_of_error herror⟩
  obtain ⟨error, hadd⟩ := hadd
  have hwrite : ∃ error,
      fates.write.apply (xadd (.named target.deadLetterStream) fields) db = (.error error, db) := by
    cases fates.write with
    | answered => exact ⟨error, hadd⟩
    | unsent => exact ⟨_, rfl⟩
    | unheard => exact ⟨_, congrArg (fun result => (Except.error Error.connection, result.2)) hadd⟩
  obtain ⟨error, hwrite⟩ := hwrite
  rw [heq, Script.bind_of_error hwrite]

theorem reapItemUnder_of_not_streamable (h : ¬ Streamable (.named target.deadLetterStream) db) :
    (target.reapItemUnder fates item db).2 = db := by
  have hsame := deadLetterUnder_of_not_streamable fates item h
  rw [reapItemUnder_state]
  split
  · split
    · next lettered heq => exact absurd (answered_of_deadLetterUnder heq).2 h
    · next lettered heq =>
      rw [heq] at hsame
      exact hsame
  · rfl

theorem not_settles_of_keeps {turn : Target.Turn}
    (h : Keeps target turn.item.messageId turn.before turn.after) : ¬ target.Settles turn := by
  rintro (⟨⟨row, hrow, hid⟩, hgone⟩ | ⟨hsome, hnone⟩)
  · exact hgone ⟨row, h.pending row hrow hid, hid⟩
  · obtain ⟨fields, hfields⟩ := Option.isSome_iff_exists.mp hsome
    rw [h.entry fields hfields] at hnone
    cases hnone

theorem pending_writeStream {stream : Stream} {db : Db Key} :
    target.pending (writeStream (.named target.stream) stream db).2 =
      match stream.groups target.group with
      | some group => group.pending
      | none => [] :=
  congrArg (fun stored : Stream => match stored.groups target.group with
    | some group => group.pending
    | none => []) (stream_writeStream _ stream db)

theorem pending_of_not_readable {error : Error} {next : Db Key}
    (h : readStream (.named target.stream) db = (.error error, next)) : target.pending db = [] := by
  unfold Target.pending
  rw [stream_of_not_readable h]
  rfl

theorem entry_of_not_readable {error : Error} {next : Db Key}
    (h : readStream (.named target.stream) db = (.error error, next)) :
    target.entry db messageId = none := by
  unfold Target.entry
  rw [stream_of_not_readable h]
  rfl

theorem readUnder_of_ok (hread : fates.read = .answered)
    (h : readStream (.named target.stream) db = (.ok (db.stream (.named target.stream)), db)) :
    (target.readUnder fates item db).1 = .ok (target.entry db item.messageId) := by
  have hcommand : target.readUnder fates item =
    xrangeOne (.named target.stream) item.messageId := by
    unfold Target.readUnder
    rw [hread]
    rfl
  rw [hcommand]
  unfold xrangeOne
  rw [Script.bind_of_ok h]
  rfl

theorem rawEvent_of_envelope {event : String} (h : target.envelope db item.messageId = some event) :
    target.rawEvent item (.ok (target.entry db item.messageId)) = event := by
  unfold Target.envelope at h
  obtain ⟨hfound, hnonempty⟩ := Option.filter_eq_some_iff.mp h
  obtain ⟨fields, hentry, hevent⟩ := Option.bind_eq_some_iff.mp hfound
  unfold Target.rawEvent
  rw [hentry]
  simp only [hevent, Option.getD_some]
  exact if_pos (of_decide_eq_true hnonempty)

theorem not_awaits_xack {messageId : Nat} {db : Db Key} :
    ¬ target.Awaits (xack (.named target.stream) target.group messageId db).2 messageId := by
  rintro ⟨row, hrow, hid⟩
  unfold xack at hrow
  rcases readStream_cases (.named target.stream) db with hok | ⟨error, herror⟩
  · rw [Script.bind_of_ok hok] at hrow
    cases hgroup : (db.stream (.named target.stream)).groups target.group with
    | none =>
      have hnone : target.pending db = [] := by
        unfold Target.pending
        rw [hgroup]
      rw [hgroup] at hrow
      have hempty : row ∈ target.pending db := hrow
      rw [hnone] at hempty
      cases hempty
    | some group =>
      rw [hgroup] at hrow
      dsimp only at hrow
      split at hrow
      · have hkept : row ∈ target.pending (writeStream (.named target.stream)
            ((db.stream (.named target.stream)).setGroup target.group (group.ack messageId))
              db).2 :=
          hrow
        simp only [pending_writeStream, Stream.setGroup, Function.update_self] at hkept
        exact of_decide_eq_true (List.mem_filter.mp hkept).2 hid
      · next hany =>
        have hthere : row ∈ group.pending := by
          have hsame : row ∈ target.pending db := hrow
          unfold Target.pending at hsame
          rw [hgroup] at hsame
          exact hsame
        exact hany (List.any_eq_true.mpr ⟨row, hthere, decide_eq_true hid⟩)
  · rw [Script.bind_of_error herror] at hrow
    have hempty : row ∈ target.pending db := hrow
    rw [pending_of_not_readable herror] at hempty
    cases hempty

theorem pending_xdel {id : Nat} {db : Db Key} :
    target.pending (xdel (.named target.stream) id db).2 = target.pending db := by
  unfold xdel
  rcases readStream_cases (.named target.stream) db with hok | ⟨error, herror⟩
  · rw [Script.bind_of_ok hok]
    cases (db.stream (.named target.stream)).entryAt id with
    | none => rfl
    | some _ => exact pending_writeStream
  · rw [Script.bind_of_error herror]

theorem not_awaits_settling (hack : fates.ack ≠ .unsent) {item : PendingItem} {db : Db Key} :
    ¬ target.Awaits (settling target fates item db).2 item.messageId := by
  have hacked : ¬ target.Awaits
      (fates.ack.apply (xack (.named target.stream) target.group item.messageId) db).2
      item.messageId := by
    rw [state_apply hack]
    exact not_awaits_xack
  have hxdel : (xdel (.named target.stream) item.messageId).Along
      fun db db' => ¬ target.Awaits db item.messageId → ¬ target.Awaits db' item.messageId := by
    intro db
    unfold Target.Awaits
    rw [pending_xdel]
    exact id
  have hdelete := along_apply (fun _ => id) hxdel fates.delete
  have hrest : (fates.delete.apply (xdel (.named target.stream) item.messageId) >>=
      fun _ => pure () : Script Key Unit).Along
      fun db db' => ¬ target.Awaits db item.messageId → ¬ target.Awaits db' item.messageId :=
    Script.Along.bind (fun _ _ _ h h' hfree => h' (h hfree)) hdelete fun _ _ => id
  unfold settling
  rw [Script.bind_apply]
  split
  · next value db₁ heq =>
    rw [heq] at hacked
    exact hrest db₁ hacked
  · next error db₁ heq =>
    rw [heq] at hacked
    exact hacked

/-- A due message that the group awaits is settled where its dead letter goes through and its
`XACK` reaches Redis. -/
theorem settles_of_lettered {fates : PassFates} (hdue : target.due item = true)
    (hletter : ∃ lettered, target.deadLetterUnder (fates.turn item.messageId) item db =
      (.ok (), lettered))
    (hack : (fates.turn item.messageId).ack ≠ .unsent) (hawaits : target.Awaits db item.messageId) :
    target.Settles (target.turnAt fates item db) := by
  obtain ⟨lettered, heq⟩ := hletter
  refine .inl ⟨hawaits, ?_⟩
  show ¬ target.Awaits (target.reapItemUnder (fates.turn item.messageId) item db).2 item.messageId
  rw [reapItemUnder_state, if_pos hdue, heq]
  exact not_awaits_settling hack

/-- The turn is safe: its message is not due, or the entry is read, or the dead letter does not go
through, or the `XACK` never reaches Redis. -/
theorem preserves_turnAt {fates : PassFates}
    (h : target.due item = true → (fates.turn item.messageId).read = .answered ∨
      (fates.turn item.messageId).write ≠ .answered ∨
      ¬ Streamable (.named target.deadLetterStream) db ∨ (fates.turn item.messageId).ack =
      .unsent) :
    target.Preserves fates (target.turnAt fates item db) := by
  by_cases hkept : target.due item = true →
      (∃ lettered, target.deadLetterUnder (fates.turn item.messageId) item db =
        (.ok (), lettered)) →
      (fates.turn item.messageId).ack = .unsent
  · have hsettles : ¬ target.Settles (target.turnAt fates item db) :=
      not_settles_of_keeps (keeps_own_turn hkept)
    exact ⟨fun hgone => absurd hgone hsettles, fun _ => hsettles⟩
  · -- the dead letter goes through, so that it carries what `XRANGE` has answered
    push Not at hkept
    obtain ⟨hdue, ⟨lettered, heq⟩, hack⟩ := hkept
    obtain ⟨hwrite, hkind⟩ := answered_of_deadLetterUnder heq
    have hanswered : (fates.turn item.messageId).read = .answered := by
      rcases h hdue with hread | hfail | hkey | hunsent
      · exact hread
      · exact absurd hwrite hfail
      · exact absurd hkind hkey
      · exact absurd hunsent hack
    rcases readStream_cases (.named target.stream) db with hok | ⟨error, herror⟩
    · refine ⟨fun _ event hevent => ?_, ?_⟩
      · have hletters := mem_deadLetters heq
        have hstored : target.envelope db item.messageId = some event := hevent
        rw [readUnder_of_ok hanswered hok, rawEvent_of_envelope hstored] at hletters
        show event ∈ target.deadLetters
          (target.deadLetterUnder (fates.turn item.messageId) item db).2
        rw [heq]
        exact hletters
      · rintro ⟨error, herror⟩
        rw [show (target.turnAt fates item db).before = db from rfl,
          show (target.turnAt fates item db).item = item from rfl,
          readUnder_of_ok hanswered hok] at herror
        cases herror
    · have hsettles : ¬ target.Settles (target.turnAt fates item db) := by
        rintro (⟨⟨row, hrow, -⟩, -⟩ | ⟨hsome, -⟩)
        · have hempty : row ∈ target.pending db := hrow
          rw [pending_of_not_readable herror] at hempty
          cases hempty
        · have hentry : (target.entry db item.messageId).isSome := hsome
          rw [entry_of_not_readable herror] at hentry
          cases hentry
      exact ⟨fun hgone => absurd hgone hsettles, fun _ => hsettles⟩

/-- Its own turn does not preserve a message that the group awaits, where it is due, its `XRANGE`
fails, its dead letter goes through and its `XACK` reaches Redis. -/
theorem not_preserves_turnAt {fates : PassFates} (hdue : target.due item = true)
    (hread : (fates.turn item.messageId).read ≠ .answered)
    (hwrite : (fates.turn item.messageId).write = .answered)
    (hkind : Streamable (.named target.deadLetterStream) db)
    (hack : (fates.turn item.messageId).ack ≠ .unsent) (hawaits : target.Awaits db item.messageId) :
    ¬ target.Preserves fates (target.turnAt fates item db) := by
  rintro ⟨-, hunread⟩
  apply hunread
  · show ∃ error, (target.readUnder (fates.turn item.messageId) item db).1 = .error error
    unfold Target.readUnder
    cases hfate : (fates.turn item.messageId).read with
    | answered => exact absurd hfate hread
    | unsent => exact ⟨_, rfl⟩
    | unheard => exact ⟨_, rfl⟩
  · exact settles_of_lettered hdue (deadLetterUnder_ok hwrite hkind) hack hawaits

variable {items : List PendingItem}

theorem exists_of_mem_turns {fates : PassFates} {turn : Target.Turn}
    (h : turn ∈ target.turns fates items db) :
    ∃ item ∈ items, ∃ before, turn = target.turnAt fates item before ∧
      (Streamable (.named target.deadLetterStream) before →
        Streamable (.named target.deadLetterStream) db) := by
  induction items generalizing db with
  | nil => cases h
  | cons item rest ih =>
    rcases List.mem_cons.mp h with rfl | hlater
    · exact ⟨item, List.mem_cons_self, db, rfl, id⟩
    · obtain ⟨other, hmem, before, heq, hkind⟩ := ih hlater
      refine ⟨other, List.mem_cons_of_mem _ hmem, before, heq, fun hbefore => ?_⟩
      by_contra hfirst
      have hsame : (target.turnAt fates item db).after = db :=
        reapItemUnder_of_not_streamable hfirst
      exact hfirst (hsame ▸ hkind hbefore)

theorem turn_of_mem {fates : PassFates} (hmem : item ∈ items)
    (hdistinct : (items.map PendingItem.messageId).Nodup)
    (hawaits : target.Awaits db item.messageId)
    (hkind : Streamable (.named target.deadLetterStream) db) :
    ∃ before, target.turnAt fates item before ∈ target.turns fates items db ∧
      target.Awaits before item.messageId ∧
      Streamable (.named target.deadLetterStream) before := by
  induction items generalizing db with
  | nil => cases hmem
  | cons first rest ih =>
    obtain ⟨hnew, hrest⟩ := List.nodup_cons.mp hdistinct
    rcases List.mem_cons.mp hmem with rfl | hlater
    · exact ⟨db, List.mem_cons_self, hawaits, hkind⟩
    · have hother : first.messageId ≠ item.messageId := by
        intro hsame
        exact hnew (hsame ▸ List.mem_map_of_mem hlater)
      obtain ⟨row, hrow, hid⟩ := hawaits
      have hkept := (keeps_reapItemUnder hother db : Keeps target item.messageId db
        (target.reapItemUnder (fates.turn first.messageId) first db).2)
      obtain ⟨before, hturn, hthere⟩ := ih hlater hrest ⟨row, hkept.pending row hrow hid, hid⟩
        (streamable_reapItemUnder db hkind)
      exact ⟨before, List.mem_cons_of_mem _ hturn, hthere⟩

theorem listedUnder_sub {target : Target} {fates : PassFates} {db : Db Key} :
    target.listedUnder fates db = target.listed db ∨ target.listedUnder fates db = [] := by
  unfold Target.listedUnder Target.listed
  cases fates.list with
  | answered => exact .inl rfl
  | unsent => exact .inr rfl
  | unheard => exact .inr rfl

theorem listed_ids {target : Target} {db : Db Key} :
    ((target.listed db).map PendingItem.messageId).Sublist
      ((target.pending db).map PendingRow.id) := by
  unfold Target.listed Target.pendingItems xpendingRange
  rw [Script.bind_assoc]
  rcases readGroup_cases (.named target.stream) target.group db with
    ⟨group, hgroup, hok⟩ | ⟨error, herror⟩
  · rw [Script.bind_of_ok hok]
    unfold Target.pending
    rw [hgroup]
    show (((group.pending.take 50).map _).map PendingItem.messageId).Sublist _
    rw [List.map_map]
    exact (List.take_sublist 50 group.pending).map PendingRow.id
  · rw [Script.bind_of_error herror]
    exact List.nil_sublist _

theorem all_answered_reapItems :
    target.reapItemsUnder .answered items = target.reapItems items := by
  induction items with
  | nil => rfl
  | cons item rest ih =>
    unfold Target.reapItemsUnder Target.reapItems
    rw [ih]
    rfl

theorem all_answered_reapStuckStream {target : Target} :
    target.reapStuckStreamUnder .answered = target.reapStuckStream := by
  unfold Target.reapStuckStreamUnder Target.reapStuckStream
  simp only [all_answered_reapItems]
  rfl

theorem reapItemUnder_ok (target : Target) (fates : TurnFates) (item : PendingItem) (db : Db Key) :
    ∃ reaped, target.reapItemUnder fates item db =
      (.ok reaped, (target.reapItemUnder fates item db).2) := by
  unfold Target.reapItemUnder
  split
  · have hattempt : attempt (target.reapUnder fates item) db =
        (.ok (target.reapUnder fates item db).1, (target.reapUnder fates item db).2) := rfl
    rw [Script.bind_of_ok hattempt]
    cases (target.reapUnder fates item db).1 with
    | error error => exact ⟨0, rfl⟩
    | ok value => exact ⟨1, rfl⟩
  · exact ⟨0, rfl⟩

theorem reapItemsUnder_eq (target : Target) (fates : PassFates) (items : List PendingItem)
    (db : Db Key) :
    ∃ reaped, target.reapItemsUnder fates items db =
      (.ok reaped, (target.turns fates items db).foldl (fun _ turn => turn.after) db) := by
  induction items generalizing db with
  | nil => exact ⟨0, rfl⟩
  | cons item rest ih =>
    obtain ⟨reaped, hfirst⟩ :=
      reapItemUnder_ok target (fates.turn item.messageId) item db
    obtain ⟨others, hrest⟩ :=
      ih (target.reapItemUnder (fates.turn item.messageId) item db).2
    refine ⟨reaped + others, ?_⟩
    unfold Target.reapItemsUnder
    rw [Script.bind_of_ok hfirst, Script.bind_of_ok hrest]
    rfl

theorem reapStuckStreamUnder_state {target : Target} {fates : PassFates} {db : Db Key} :
    (target.reapStuckStreamUnder fates db).2 =
      (target.passTurns fates db).foldl (fun _ turn => turn.after) db := by
  have hlist : attempt (fates.list.apply target.pendingItems) db =
      (.ok (fates.list.apply target.pendingItems db).1, db) :=
    congrArg (Prod.mk _) (reads_apply reads_pendingItems db)
  obtain ⟨reaped, hloop⟩ :=
    reapItemsUnder_eq target fates (target.listedUnder fates db) db
  unfold Target.reapStuckStreamUnder
  rw [Script.bind_of_ok hlist]
  exact congrArg Prod.snd (Script.bind_of_ok hloop)

/-- The pass preserves every event exactly if each message that it lists and finds stuck has its
entry read, or a dead letter that does not go through, or an `XACK` that does not reach Redis. The
pending list is keyed by the ids of the messages. -/
theorem events_preserved_iff (target : Target) (fates : PassFates) (db : Db Key)
    (hdistinct : ((target.pending db).map PendingRow.id).Nodup) :
    (∀ turn ∈ target.passTurns fates db, target.Preserves fates turn) ↔
      ∀ item ∈ target.listedUnder fates db, target.due item = true →
        (fates.turn item.messageId).read = .answered ∨
        (fates.turn item.messageId).write ≠ .answered ∨
        ¬ Streamable (.named target.deadLetterStream) db ∨
        (fates.turn item.messageId).ack = .unsent := by
  have hlisted : ((target.listedUnder fates db).map PendingItem.messageId).Nodup ∧
      ∀ item ∈ target.listedUnder fates db, target.Awaits db item.messageId := by
    rcases listedUnder_sub with heq | heq
    · rw [heq]
      exact ⟨(listed_ids).nodup hdistinct, fun item hmem => pending_of_listed hmem⟩
    · rw [heq]
      exact ⟨List.nodup_nil, nofun⟩
  constructor
  · intro hpreserved item hmem hdue
    by_contra hbad
    push Not at hbad
    obtain ⟨hread, hwrite, hkind, hack⟩ := hbad
    obtain ⟨before, hturn, hawaits, hthere⟩ :=
      turn_of_mem hmem hlisted.1 (hlisted.2 item hmem) hkind
    exact not_preserves_turnAt hdue hread hwrite hthere hack hawaits (hpreserved _ hturn)
  · intro hsafe turn hturn
    obtain ⟨item, hmem, before, rfl, hkind⟩ := exists_of_mem_turns hturn
    apply preserves_turnAt
    intro hdue
    rcases hsafe item hmem hdue with hread | hwrite | hkey | hack
    · exact .inl hread
    · exact .inr (.inl hwrite)
    · exact .inr (.inr (.inl fun hbefore => hkey (hkind hbefore)))
    · exact .inr (.inr (.inr hack))

/-! A stuck entry whose `XRANGE` fails. -/

/-- `json.dumps` of pairs whose texts need no escapes. -/
def plainDumps (pairs : List (String × String)) : String :=
  "\x7b" ++ ", ".intercalate (pairs.map fun pair =>
    "\"" ++ pair.1 ++ "\": \"" ++ pair.2 ++ "\"") ++ "\x7d"

def notedTarget : Target := { sampleTarget with dumps := plainDumps }

/-- `XRANGE` never reaches Redis, everything else is answered. -/
def unreadFates : PassFates where
  list := .answered
  turn _ := ⟨.unsent, .answered, .answered, .answered⟩

def unreadTurn : Target.Turn :=
  notedTarget.turnAt unreadFates ⟨1, 0, 8⟩ sampleDb

/-- As before, and `XACK` never reaches Redis either. -/
def unackedFates : PassFates :=
  { unreadFates with turn := fun _ => ⟨.unsent, .answered, .unsent, .answered⟩ }

def unackedTurn : Target.Turn :=
  notedTarget.turnAt unackedFates ⟨1, 0, 8⟩ sampleDb

/-- `XACK` fails after the dead letter of an entry that could not be read has been written, so that
the entry stays. -/
theorem events_preserved_unacked :
    unackedTurn ∈ notedTarget.passTurns unackedFates sampleDb ∧
      notedTarget.Preserves unackedFates unackedTurn := by
  have hdistinct : ((notedTarget.pending sampleDb).map PendingRow.id).Nodup := by decide +kernel
  have hpreserved := (events_preserved_iff notedTarget unackedFates sampleDb hdistinct).mpr
    fun _ _ _ => .inr (.inr (.inr rfl))
  exact ⟨List.mem_cons_self, hpreserved unackedTurn List.mem_cons_self⟩

/-- `XRANGE` fails: the event of the entry is nowhere when the message has been acknowledged and the
entry deleted. -/
theorem note_in_place_of_event :
    unreadTurn ∈ notedTarget.passTurns unreadFates sampleDb ∧
      notedTarget.envelope unreadTurn.before 1 = some "e1" ∧
      notedTarget.deadLetters unreadTurn.lettered =
        [plainDumps [("messageId", "1-0"), ("stream", "conversation:processing")]] ∧
      notedTarget.pending unreadTurn.after = [] ∧ notedTarget.entry unreadTurn.after 1 = none ∧
      ¬ notedTarget.Preserves unreadFates unreadTurn := by
  have hevent : notedTarget.envelope unreadTurn.before 1 = some "e1" := by decide +kernel
  have hletters : notedTarget.deadLetters unreadTurn.lettered =
      [plainDumps [("messageId", "1-0"), ("stream", "conversation:processing")]] := by
    decide +kernel
  have hentry : notedTarget.entry unreadTurn.after 1 = none := by decide +kernel
  refine ⟨List.mem_cons_self, hevent, hletters, by decide +kernel, hentry, ?_⟩
  rintro ⟨hstored, -⟩
  have hthere : (notedTarget.entry unreadTurn.before 1).isSome := by decide +kernel
  have hmem := hstored (.inr ⟨hthere, hentry⟩) "e1" hevent
  rw [hletters] at hmem
  revert hmem
  decide +kernel

end AiBuddy.Queue.Maintenance
