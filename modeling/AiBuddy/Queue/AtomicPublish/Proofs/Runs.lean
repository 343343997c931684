import AiBuddy.Queue.AtomicPublish.Proofs.ScriptSpecs

/-!
# An event id is published once

The invariant relates the dedupe record of an event id to the calls that published
it and to the entries they pushed.
-/

namespace AiBuddy.Queue.AtomicPublish

open Redis

variable {cjsonDecode : String → Decoded} {settings : PublishSettings}

theorem args_separate (settings : PublishSettings) (call : PublishCall) :
    Separate (call.args settings) := by
  constructor
  · simp [PublishCall.args]
  · simp only [PublishCall.args]
    split <;> simp
  · simp only [PublishCall.args]
    split <;> simp

theorem speechKey_ne_dedupe (settings : PublishSettings) (call : PublishCall) (eventId : String) :
    Key.dedupe eventId ≠ (call.args settings).speechKey := by
  simp only [PublishCall.args]
  split <;> simp

section Effects

variable {args : PublishArgs} {db : Db Key} {fields : LuaTable} {record : Fields}

theorem queued_congr {db db' : Db Key} {queue : Key} (h : db'.live queue = db.live queue) :
    queued db' queue = queued db queue := by
  simp only [queued, Db.list, Db.stream, h]

theorem withRecord_live_of_ne (record : Fields) (db : Db Key) {key : Key} (h : key ≠ args.dedupe) :
    (withRecord args record db).live key = db.live key :=
  Db.live_put_of_ne db h _

theorem speechWritten_hash (hwrite : args.writeSpeech = true)
    (hlive : db.live args.speechKey = none)
    (hne : flatten fields ≠ []) :
    (speechWritten args fields db).hash? args.speechKey =
      some (Fields.insertAll [] (flatten fields)) := by
  rw [speechWritten, if_pos ⟨hwrite, by simp [hlive], hne⟩]
  exact hash?_eq_some.mpr ⟨_, Db.live_put_ahead db args.speechKey _ _⟩

theorem withRecord_hash (args : PublishArgs) (record : Fields) (db : Db Key) :
    (withRecord args record db).hash? args.dedupe = some record :=
  hash?_eq_some.mpr ⟨_, Db.live_put_ahead db args.dedupe _ _⟩

theorem queued_pushed (hmode : args.mode = "list" ∨ args.mode = "stream")
    (hqueue : db.kind args.queue = "none" ∨ db.kind args.queue = args.mode) :
    queued (pushed args db) args.queue = queued db args.queue + 1 := by
  rcases hmode with hmode | hmode
  · rw [hmode] at hqueue
    have hlive : (pushed args db).live args.queue =
        some ⟨.list (args.payload :: db.list args.queue),
          (db.live args.queue).bind Entry.expireAt⟩ := by
      rw [pushed, if_pos hmode, Db.live_store_self]
    have hbefore : (db.stream args.queue).entries = [] := stream_entries_of_kind hqueue
    have hafter : ((pushed args db).stream args.queue).entries = [] := by
      simp [Db.stream, hlive, Stream.empty]
    have hlist : (pushed args db).list args.queue = args.payload :: db.list args.queue := by
      simp [Db.list, hlive]
    rw [queued, queued, hbefore, hafter, hlist, List.length_cons, List.length_nil]
    omega
  · rw [hmode] at hqueue
    have hlive : (pushed args db).live args.queue =
        some ⟨.stream ((db.stream args.queue).add [("event", args.payload)]),
          (db.live args.queue).bind Entry.expireAt⟩ := by
      have hne : args.mode ≠ "list" := by rw [hmode]; decide
      rw [pushed, if_neg hne, Db.live_store_self]
    have hbefore : db.list args.queue = [] := list_of_kind hqueue
    have hafter : (pushed args db).list args.queue = [] := by simp [Db.list, hlive]
    have hstream : ((pushed args db).stream args.queue).entries.length =
        (db.stream args.queue).entries.length + 1 := by
      simp [Db.stream, hlive, Stream.add]
    rw [queued, queued, hbefore, hafter, hstream]
    omega

theorem lookup_payloadHash {args : PublishArgs} {messageId : String} :
    (Fields.insertAll [] (dedupeRecord args messageId)).lookup "payloadHash" =
      some args.payloadHash := by
  simp [Fields.insertAll, Fields.insert, dedupeRecord, List.lookup_cons]

theorem queued_published (messageId : String) (hseparate : Separate args)
    (hcleared : Cleared cjsonDecode args db fields) :
    queued (speechWritten args fields (withRecord args (Fields.insertAll []
      (dedupeRecord args messageId)) (pushed args db))) args.queue = queued db args.queue + 1 := by
  rw [queued_congr (speechWritten_live_of_ne hseparate.queue_speech),
    queued_congr (withRecord_live_of_ne _ _ hseparate.dedupe_queue.symm)]
  exact queued_pushed hcleared.mode hcleared.queue

theorem queued_duplicate (fields : LuaTable) (record : Fields) (db : Db Key)
    (hseparate : Separate args) :
    queued (withRecord args record (speechWritten args fields db)) args.queue =
      queued db args.queue := by
  rw [queued_congr (withRecord_live_of_ne _ _ hseparate.dedupe_queue.symm),
    queued_congr (speechWritten_live_of_ne hseparate.queue_speech)]

end Effects

section Histories

variable {history : List PublishEvent} {event : PublishEvent} {eventId : String}

theorem pushedFor_append_of_ne (h : event.call.eventId ≠ eventId) :
    pushedFor (history ++ [event]) eventId = pushedFor history eventId := by
  simp [pushedFor, h]

theorem pushedFor_append_self (h : event.call.eventId = eventId) :
    pushedFor (history ++ [event]) eventId = pushedFor history eventId + event.pushes := by
  simp [pushedFor, h]

theorem publishedFor_append_of_not (h : ¬ (event.call.eventId = eventId ∧
    event.hasOutcome "published" = true)) :
    publishedFor (history ++ [event]) eventId = publishedFor history eventId := by
  unfold publishedFor
  rw [List.filter_append]
  simp only [List.append_right_eq_self, List.filter_eq_nil_iff, List.mem_singleton]
  rintro _ rfl
  simpa using h

theorem publishedFor_append_self (history : List PublishEvent) (h : event.call.eventId = eventId)
    (hpublished : event.hasOutcome "published" = true) :
    publishedFor (history ++ [event]) eventId = publishedFor history eventId ++ [event] := by
  simp [publishedFor, h, hpublished]

end Histories

structure Recorded (history : List PublishEvent) (db : Db Key) (eventId : String) : Prop where
  count : pushedFor history eventId = (publishedFor history eventId).length
  record : (publishedFor history eventId = [] ∧ db.live (.dedupe eventId) = none) ∨
    ∃ first record, publishedFor history eventId = [first] ∧
      db.hash? (.dedupe eventId) = some record ∧
      record.lookup "payloadHash" = some first.call.fingerprint

variable {before : Db Key}

section Step

variable {history : List PublishEvent} {db db' : Db Key} {eventId : String} {event : PublishEvent}

theorem Recorded.keep (inv : Recorded history db eventId)
    (hvalue : (db'.live (.dedupe eventId)).map Entry.value =
      (db.live (.dedupe eventId)).map Entry.value) : Recorded history db' eventId where
  count := inv.count
  record := by
    rcases inv.record with ⟨hnil, hnone⟩ | ⟨first, record, hfirst, hrecord, hhash⟩
    · refine .inl ⟨hnil, ?_⟩
      rw [hnone] at hvalue
      simpa using hvalue
    · refine .inr ⟨first, record, hfirst, ?_, hhash⟩
      rw [← hrecord]
      exact hash?_congr hvalue

theorem outcome_of_step (hfits : Fits cjsonDecode (event.call.args settings))
    (h : PublishStep cjsonDecode settings db event db') :
    PublishOutcome cjsonDecode (event.call.args settings) event.before event.reply event.after := by
  obtain ⟨rfl, rfl, heval⟩ := h
  have outcome := publishLua_outcome event.before hfits (args_separate settings event.call)
  rw [publishEval] at heval
  rwa [heval] at outcome

theorem dedupe_live_of_ne
    (outcome : PublishOutcome cjsonDecode (event.call.args settings) event.before event.reply
      event.after) (h : event.call.eventId ≠ eventId) :
    event.after.live (.dedupe eventId) = event.before.live (.dedupe eventId) := by
  have hown : Key.dedupe eventId ≠ (event.call.args settings).dedupe := by
    simpa [PublishCall.args] using fun h' => h h'.symm
  have hqueue : Key.dedupe eventId ≠ (event.call.args settings).queue := by
    simp [PublishCall.args]
  have hspeech := speechKey_ne_dedupe settings event.call eventId
  generalize event.after = after at outcome
  generalize event.reply = reply at outcome
  cases outcome with
  | refused | conflict => rfl
  | duplicate => rw [withRecord_live_of_ne _ _ hown, speechWritten_live_of_ne hspeech]
  | published =>
    rw [speechWritten_live_of_ne hspeech, withRecord_live_of_ne _ _ hown, pushed_live_of_ne hqueue]

theorem hasOutcome_error {call : PublishCall} {error : Error} {after : Db Key} {outcome : String} :
    PublishEvent.hasOutcome ⟨before, call, .error error, after⟩ outcome = false := by
  have hresult : ∃ error', publishResult call (.error error) = .error error' := by
    unfold publishResult
    split
    · exact ⟨_, rfl⟩
    · exact ⟨_, rfl⟩
    · rename_i h
      cases h
  obtain ⟨error', hresult⟩ := hresult
  simp [PublishEvent.hasOutcome, PublishEvent.result, hresult]

theorem Recorded.call (inv : Recorded history event.before eventId)
    (outcome : PublishOutcome cjsonDecode (event.call.args settings) event.before event.reply
      event.after) : Recorded (history ++ [event]) event.after eventId := by
  by_cases hid : event.call.eventId = eventId
  swap
  · refine ⟨?_, ?_⟩
    · rw [pushedFor_append_of_ne hid, publishedFor_append_of_not (fun h => hid h.1)]
      exact inv.count
    · rw [publishedFor_append_of_not (fun h => hid h.1)]
      exact (inv.keep (by rw [dedupe_live_of_ne outcome hid])).record
  subst hid
  obtain ⟨before, call, reply, after⟩ := event
  simp only at inv outcome ⊢
  -- a call that pushes nothing and publishes nothing, and keeps the record
  have quiet : queued after (.named call.queue) = queued before (.named call.queue) →
      PublishEvent.hasOutcome ⟨before, call, reply, after⟩ "published" = false →
      (after.live (.dedupe call.eventId)).map Entry.value =
        (before.live (.dedupe call.eventId)).map Entry.value →
      Recorded (history ++ [⟨before, call, reply, after⟩]) after call.eventId := by
    intro hqueued hnot hvalue
    have hpushes : PublishEvent.pushes ⟨before, call, reply, after⟩ = 0 := by
      simp [PublishEvent.pushes, hqueued]
    refine ⟨?_, ?_⟩
    · rw [pushedFor_append_self rfl, publishedFor_append_of_not (by simp [hnot]), hpushes,
        inv.count]
      omega
    · rw [publishedFor_append_of_not (by simp [hnot])]
      exact (inv.keep hvalue).record
  have hseparate := args_separate settings call
  cases outcome with
  | refused error hrefused => exact quiet rfl hasOutcome_error rfl
  | conflict record messageId queue hrecord hconflict =>
    exact quiet rfl (by simp [PublishEvent.hasOutcome, PublishEvent.result, publishResult]) rfl
  | duplicate fields record messageId queue hcleared hrecord hsame =>
    refine quiet (queued_duplicate fields record before hseparate)
      (by simp [PublishEvent.hasOutcome, PublishEvent.result, publishResult]) ?_
    have hafter := withRecord_hash (call.args settings) record
      (speechWritten (call.args settings) fields before)
    exact (value_of_hash? hafter).trans (value_of_hash? hrecord).symm
  | published fields messageId hcleared habsent =>
    have hnil : publishedFor history call.eventId = [] := by
      rcases inv.record with ⟨hnil, -⟩ | ⟨first, record, -, hrecord, -⟩
      · exact hnil
      · obtain ⟨expireAt, hlive⟩ := hash?_eq_some.mp hrecord
        rw [show before.live (.dedupe call.eventId) = none from habsent] at hlive
        cases hlive
    have hpushes : queued _ _ = queued before (.named call.queue) + 1 :=
      queued_published messageId hseparate hcleared
    have hcount := inv.count
    rw [hnil, List.length_nil] at hcount
    have hpublished : PublishEvent.hasOutcome ⟨before, call, .ok ("published", messageId,
        (call.args settings).queueText), speechWritten (call.args settings) fields
          (withRecord (call.args settings) (Fields.insertAll []
            (dedupeRecord (call.args settings) messageId)) (pushed (call.args settings) before))⟩
        "published" = true := by
      simp [PublishEvent.hasOutcome, PublishEvent.result, publishResult]
    have hlookup : (Fields.insertAll [] (dedupeRecord (call.args settings) messageId)).lookup
        "payloadHash" = some call.fingerprint := lookup_payloadHash
    have hsingle := publishedFor_append_self history rfl hpublished
    rw [hnil, List.nil_append] at hsingle
    refine ⟨?_, .inr ⟨_, _, hsingle, ?_, hlookup⟩⟩
    · rw [pushedFor_append_self rfl, hsingle, hcount, PublishEvent.pushes]
      simp only [PublishCall.args] at hpushes ⊢
      rw [hpushes, List.length_singleton]
      omega
    · have hwritten := withRecord_hash (call.args settings)
        (Fields.insertAll [] (dedupeRecord (call.args settings) messageId))
        (pushed (call.args settings) before)
      rw [← hwritten]
      exact hash?_congr (congrArg _ (speechWritten_live_of_ne hseparate.dedupe_speech))

end Step

variable {first : PublishEvent}

section Run

variable {start db : Db Key} {history : List PublishEvent}

theorem recorded_of_run (run : PublishRun cjsonDecode settings start history db)
    (hstart : ∀ eventId, start.live (.dedupe eventId) = none)
    (hfits : ∀ event ∈ history, Fits cjsonDecode (event.call.args settings)) (eventId : String) :
    Recorded history db eventId := by
  refine run.invariant (fun history db =>
    (∀ event ∈ history, Fits cjsonDecode (event.call.args settings)) → Recorded history db eventId)
    (fun _ => ?_) ?_ ?_ hfits
  · exact ⟨by simp [pushedFor, publishedFor], .inl ⟨rfl, hstart eventId⟩⟩
  · intro history db event db' inv step hfits
    have outcome := outcome_of_step (hfits event (by simp)) step
    obtain ⟨rfl, rfl, -⟩ := step
    exact (inv fun e he => hfits e (List.mem_append_left _ he)).call outcome
  · intro history db db' inv elsewhere hfits
    exact (inv hfits).keep (elsewhere eventId)

theorem record_of_published {history : List PublishEvent} {eventId : String}
    (inv : Recorded history db eventId) (hfirst : first ∈ publishedFor history eventId) :
    ∃ record, db.hash? (.dedupe eventId) = some record ∧
      record.lookup "payloadHash" = some first.call.fingerprint := by
  rcases inv.record with ⟨hnil, -⟩ | ⟨other, record, hother, hrecord, hhash⟩
  · rw [hnil] at hfirst
    cases hfirst
  · rw [hother, List.mem_singleton] at hfirst
    exact ⟨record, hrecord, hfirst ▸ hhash⟩

theorem unchanged_of_error {args : PublishArgs} {reply : Except Error (String × String × String)}
    {after : Db Key} {error : Error}
    (outcome : PublishOutcome cjsonDecode args before reply after) (h : reply = .error error) :
    after = before := by
  cases outcome with
  | refused => rfl
  | conflict | duplicate | published => cases h

theorem conflict_of_other {event : PublishEvent} {record : Fields}
    (outcome : PublishOutcome cjsonDecode (event.call.args settings) event.before event.reply
      event.after)
    (hrecord : event.before.hash? (.dedupe event.call.eventId) = some record)
    (hhash : record.lookup "payloadHash" = some first.call.fingerprint)
    (hother : first.call.fingerprint ≠ event.call.fingerprint) :
    event.after = event.before ∧ (event.Refused cjsonDecode settings ∨
      event.result = .error (.queuePayloadConflict event.call.eventId)) := by
  obtain ⟨before, call, reply, after⟩ := event
  simp only at outcome hrecord hother ⊢
  have hconflict : Conflicting (call.args settings) record := by
    refine ⟨by simp [hhash, first.call.fingerprint_ne], ?_⟩
    rw [hhash]
    simpa [PublishCall.args] using hother
  have hsome : before.live (call.args settings).dedupe ≠ none := by
    obtain ⟨expireAt, hlive⟩ := hash?_eq_some.mp hrecord
    rw [show before.live (call.args settings).dedupe = _ from hlive]
    simp
  cases outcome with
  | refused error hrefused =>
    rcases hrefused with hrefused | hnone
    · exact ⟨rfl, .inl ⟨error, hrefused, rfl⟩⟩
    · exact absurd hnone hsome
  | conflict => exact ⟨rfl, .inr (by simp [PublishEvent.result, publishResult])⟩
  | duplicate fields record' messageId queue hcleared hrecord' hsame =>
    obtain rfl : record' = record := Option.some.inj (hrecord'.symm.trans hrecord)
    exact absurd hconflict hsame
  | published fields messageId hcleared habsent => exact absurd habsent hsome

theorem duplicate_of_same {event : PublishEvent} {record : Fields}
    (outcome : PublishOutcome cjsonDecode (event.call.args settings) event.before event.reply
      event.after)
    (hrecord : event.before.hash? (.dedupe event.call.eventId) = some record)
    (hhash : record.lookup "payloadHash" = some first.call.fingerprint)
    (hsame : first.call.fingerprint = event.call.fingerprint) :
    event.pushes = 0 ∧ (event.Refused cjsonDecode settings ∨ event.hasOutcome "duplicate" = true ∧
      ∀ fields, event.call.writeSpeech = true →
        event.before.live (event.call.args settings).speechKey = none →
        cjsonDecode (event.call.args settings).speechJson = .table fields → flatten fields ≠ [] →
          event.after.hash? (event.call.args settings).speechKey =
            some (Fields.insertAll [] (flatten fields))) := by
  obtain ⟨before, call, reply, after⟩ := event
  simp only at outcome hrecord hsame ⊢
  have hnot : ∀ record', before.hash? (call.args settings).dedupe = some record' →
      ¬ Conflicting (call.args settings) record' := by
    rintro record' hrecord' ⟨-, hne⟩
    obtain rfl : record' = record := Option.some.inj (hrecord'.symm.trans hrecord)
    exact hne (hhash.trans (congrArg some hsame))
  have hsome : before.live (call.args settings).dedupe ≠ none := by
    obtain ⟨expireAt, hlive⟩ := hash?_eq_some.mp hrecord
    rw [show before.live (call.args settings).dedupe = _ from hlive]
    simp
  have hseparate := args_separate settings call
  cases outcome with
  | refused error hrefused =>
    rcases hrefused with hrefused | hnone
    · exact ⟨by simp [PublishEvent.pushes], .inl ⟨error, hrefused, rfl⟩⟩
    · exact absurd hnone hsome
  | conflict record' messageId queue hrecord' hconflict =>
    exact absurd hconflict (hnot record' hrecord')
  | duplicate fields record' messageId queue hcleared hrecord' hsame' =>
    refine ⟨?_, .inr ⟨by simp [PublishEvent.hasOutcome, PublishEvent.result, publishResult], ?_⟩⟩
    · have hqueued := queued_duplicate fields record' before hseparate
      simp only [PublishCall.args] at hqueued
      simp [PublishEvent.pushes, PublishCall.args, hqueued]
    · intro fields' hwrite hlive hdecode hne
      obtain rfl : fields = fields' :=
        Decoded.table.inj ((hcleared.speech hwrite).2.1.symm.trans hdecode)
      have hkept := withRecord_live_of_ne record'
        (speechWritten (call.args settings) fields before) hseparate.dedupe_speech.symm
      rw [hash?_congr (congrArg (Option.map Entry.value) hkept)]
      exact speechWritten_hash hwrite hlive hne
  | published fields messageId hcleared habsent => exact absurd habsent hsome

/-- An event id is published once, over every run whose metadata fits on the Lua stack. The
entries pushed for it are the `published` outcomes for it, at most one. A call with another
fingerprint for a published id changes nothing, and conflicts unless the preflight refuses
it. A call that ends in an error changes nothing. A call with the same fingerprint pushes
nothing and fills a missing speech hash. -/
theorem publish_once (run : PublishRun cjsonDecode settings start history db)
    (hstart : ∀ eventId, start.live (.dedupe eventId) = none)
    (hfits : ∀ event ∈ history, Fits cjsonDecode (event.call.args settings)) :
    (∀ eventId, pushedFor history eventId = (publishedFor history eventId).length ∧
      (publishedFor history eventId).length ≤ 1) ∧
    (∀ event ∈ history, ∀ error, event.reply = .error error → event.after = event.before) ∧
    (∀ before event after, history = before ++ event :: after →
      ∀ first ∈ publishedFor before event.call.eventId,
        if first.call.fingerprint ≠ event.call.fingerprint then
          event.after = event.before ∧ (event.Refused cjsonDecode settings ∨
            event.result = .error (.queuePayloadConflict event.call.eventId))
        else
          event.pushes = 0 ∧ (event.Refused cjsonDecode settings ∨
            event.hasOutcome "duplicate" = true ∧
            ∀ fields, event.call.writeSpeech = true →
              event.before.live (event.call.args settings).speechKey = none →
              cjsonDecode (event.call.args settings).speechJson = .table fields →
              flatten fields ≠ [] →
                event.after.hash? (event.call.args settings).speechKey =
                  some (Fields.insertAll [] (flatten fields)))) := by
  have around : ∀ {before event after}, history = before ++ event :: after →
      (∀ eventId, Recorded before event.before eventId) ∧
      PublishOutcome cjsonDecode (event.call.args settings) event.before event.reply
        event.after := by
    intro before event after hhistory
    obtain ⟨u, v, hrun, hstep⟩ := run.around hhistory
    have outcome := outcome_of_step (hfits event (by simp [hhistory])) hstep
    obtain rfl := hstep.1
    exact ⟨recorded_of_run hrun hstart (fun e he => hfits e (by simp [hhistory, he])), outcome⟩
  refine ⟨fun eventId => ?_, ?_, ?_⟩
  · have inv := recorded_of_run run hstart hfits eventId
    refine ⟨inv.count, ?_⟩
    rcases inv.record with ⟨hnil, -⟩ | ⟨first, record, hfirst, -⟩
    · simp [hnil]
    · simp [hfirst]
  · intro event hmem error hreply
    obtain ⟨before, after, hhistory⟩ := List.append_of_mem hmem
    exact unchanged_of_error (around hhistory).2 hreply
  · intro before event after hhistory first hfirst
    obtain ⟨hinv, outcome⟩ := around hhistory
    obtain ⟨record, hrecord, hhash⟩ := record_of_published (hinv _) hfirst
    split
    · rename_i hother
      exact conflict_of_other outcome hrecord hhash hother
    · rename_i hsame
      exact duplicate_of_same outcome hrecord hhash (not_not.mp hsame)

end Run

/-! A speech job that is published and published again. -/

def sampleDecode (_ : String) : Decoded :=
    .table [("job_id", .scalar "j1"), ("status", .scalar "queued")]

def sampleCall : PublishCall where
  eventId := "e1"
  queue := "speech_transcribe_queue"
  mode := "list"
  payload := "{}"
  fingerprint := "abc"
  fingerprint_ne := by decide
  correlationId := "c1"
  checkExportLock := true
  speechJobKey := some "j1"
  speechJobFields := some "{}"
  speechJobTtl := 86400

def sampleStart : Db Key := ⟨0, fun _ => none⟩

def sampleEvent (cjsonDecode : String → Decoded) (before : Db Key) : PublishEvent where
  before := before
  call := sampleCall
  reply := (publishEval cjsonDecode {} sampleCall before).1
  after := (publishEval cjsonDecode {} sampleCall before).2

theorem sampleEvent_step {cjsonDecode : String → Decoded} :
    PublishStep cjsonDecode {} before (sampleEvent cjsonDecode before)
      (sampleEvent cjsonDecode before).after := ⟨rfl, rfl, rfl⟩

def sampleFirst : PublishEvent := sampleEvent sampleDecode sampleStart

def sampleSecond : PublishEvent := sampleEvent sampleDecode sampleFirst.after

theorem sampleRun : PublishRun sampleDecode {} sampleStart [sampleFirst, sampleSecond]
    sampleSecond.after := by
  have first : PublishRun sampleDecode {} sampleStart ([] ++ [sampleFirst]) sampleFirst.after :=
    .step .nil sampleEvent_step
  exact .step first sampleEvent_step

theorem sample_fits : ∀ event ∈ [sampleFirst, sampleSecond],
    Fits sampleDecode (event.call.args {}) := by
  intro event _ _ fields hfields
  obtain rfl := Decoded.table.inj hfields
  decide

theorem publish_once_sample :
    pushedFor [sampleFirst, sampleSecond] "e1" = 1 ∧
      (publishedFor [sampleFirst, sampleSecond] "e1").length ≤ 1 :=
  ⟨by decide +kernel,
    ((publish_once sampleRun (fun _ => rfl) sample_fits).1 "e1").2⟩

/-! The same job with four thousand fields. -/

def wideFields : LuaTable := (List.range 4000).map (fun n => ((n : Int).repr, .scalar "x"))

def wideDecode (_ : String) : Decoded := .table wideFields

def wideEvent : PublishEvent := sampleEvent wideDecode sampleStart

/-- A call that ends in an error has pushed its entry. -/
theorem wide_metadata_pushes_and_fails :
    PublishRun wideDecode {} sampleStart [wideEvent] wideEvent.after ∧
      wideEvent.reply = .error (.reply "too many results to unpack") ∧
      wideEvent.pushes = 1 ∧ publishedFor [wideEvent] "e1" = [] := by
  have run : PublishRun wideDecode {} sampleStart ([] ++ [wideEvent]) wideEvent.after :=
    .step .nil sampleEvent_step
  have hreply : wideEvent.reply = .error (.reply "too many results to unpack") := by decide +kernel
  refine ⟨run, hreply, by decide +kernel, ?_⟩
  simp [publishedFor, PublishEvent.hasOutcome, PublishEvent.result, hreply, publishResult]

end AiBuddy.Queue.AtomicPublish
