import AiBuddy.Queue.AtomicPublish.Script

/-!
# What the publish script can do

The preflight reads and never writes. After it, a script whose metadata fits on the
Lua stack ends in one of three ways: a conflict, a duplicate or a publication.
-/

namespace AiBuddy.Queue.AtomicPublish

open Redis

variable {cjsonDecode : String → Decoded} {args : PublishArgs} {db db' : Db Key}

structure Cleared (cjsonDecode : String → Decoded) (args : PublishArgs) (db : Db Key)
    (fields : LuaTable) : Prop where
  mode : args.mode = "list" ∨ args.mode = "stream"
  ttl : 1 ≤ args.ttl
  payload : args.payload ≠ ""
  speech : args.writeSpeech = true →
    1 ≤ args.speechTtl ∧ cjsonDecode args.speechJson = .table fields ∧
      (db.kind args.speechKey = "none" ∨ db.kind args.speechKey = "hash")
  dedupe : db.kind args.dedupe = "none" ∨ db.kind args.dedupe = "hash"
  queue : db.kind args.queue = "none" ∨ db.kind args.queue = args.mode

theorem speechPreflight_cases {cjsonDecode : String → Decoded} {args : PublishArgs} {db : Db Key} :
    (∃ error, speechPreflight cjsonDecode args db = (.error error, db)) ∨
    ∃ fields, speechPreflight cjsonDecode args db = (.ok fields, db) ∧
      (args.writeSpeech = true → 1 ≤ args.speechTtl ∧
        cjsonDecode args.speechJson = .table fields ∧
          (db.kind args.speechKey = "none" ∨ db.kind args.speechKey = "hash")) := by
  unfold speechPreflight
  by_cases hwrite : args.writeSpeech = true
  swap
  · rw [if_neg hwrite]
    exact .inr ⟨[], rfl, fun h => absurd h hwrite⟩
  rw [if_pos hwrite]
  by_cases httl : args.speechTtl < 1
  · rw [if_pos httl]
    exact .inl ⟨_, rfl⟩
  rw [if_neg httl]
  cases hdecode : cjsonDecode args.speechJson with
  | error | scalar => exact .inl ⟨_, rfl⟩
  | table fields =>
    simp only
    rw [Script.bind_of_ok (typeOf_apply _ _)]
    by_cases hkind : db.kind args.speechKey ≠ "none" ∧ db.kind args.speechKey ≠ "hash"
    · rw [if_pos hkind]
      exact .inl ⟨_, rfl⟩
    · rw [if_neg hkind]
      exact .inr ⟨fields, rfl, fun _ => ⟨by omega, rfl, by tauto⟩⟩

theorem preflight_cases {cjsonDecode : String → Decoded} {args : PublishArgs} {db : Db Key} :
    (∃ error, preflight cjsonDecode args db = (.error error, db)) ∨
    ∃ fields, preflight cjsonDecode args db = (.ok (fields, db.kind args.dedupe), db) ∧
      Cleared cjsonDecode args db fields := by
  unfold preflight
  by_cases hmode : args.mode ≠ "list" ∧ args.mode ≠ "stream"
  · rw [if_pos hmode]
    exact .inl ⟨_, rfl⟩
  rw [if_neg hmode]
  by_cases httl : args.ttl < 1
  · rw [if_pos httl]
    exact .inl ⟨_, rfl⟩
  rw [if_neg httl]
  by_cases hpayload : args.payload = ""
  · rw [if_pos hpayload]
    exact .inl ⟨_, rfl⟩
  rw [if_neg hpayload]
  rcases speechPreflight_cases with
    ⟨error, herror⟩ | ⟨fields, hfields, hspeech⟩
  · rw [Script.bind_of_error herror]
    exact .inl ⟨_, rfl⟩
  rw [Script.bind_of_ok hfields, Script.bind_of_ok (typeOf_apply _ _)]
  by_cases hdedupe : db.kind args.dedupe ≠ "none" ∧ db.kind args.dedupe ≠ "hash"
  · rw [if_pos hdedupe]
    exact .inl ⟨_, rfl⟩
  rw [if_neg hdedupe, Script.bind_of_ok (typeOf_apply _ _)]
  by_cases hlist : args.mode = "list" ∧ db.kind args.queue ≠ "none" ∧ db.kind args.queue ≠ "list"
  · rw [if_pos hlist]
    exact .inl ⟨_, rfl⟩
  rw [if_neg hlist]
  by_cases hstream : args.mode = "stream" ∧ db.kind args.queue ≠ "none" ∧
      db.kind args.queue ≠ "stream"
  · rw [if_pos hstream]
    exact .inl ⟨_, rfl⟩
  rw [if_neg hstream]
  have hmode' : args.mode = "list" ∨ args.mode = "stream" := by tauto
  refine .inr ⟨fields, rfl, ⟨hmode', by omega, hpayload, hspeech, by tauto, ?_⟩⟩
  rcases hmode' with hmode' | hmode' <;> rw [hmode'] <;> tauto

def Fits (cjsonDecode : String → Decoded) (args : PublishArgs) : Prop :=
  args.writeSpeech = true → ∀ fields, cjsonDecode args.speechJson = .table fields →
    (flatten fields).length < 4000

def speechWritten (args : PublishArgs) (fields : LuaTable) (db : Db Key) : Db Key :=
  if args.writeSpeech ∧ (db.live args.speechKey).isNone ∧ flatten fields ≠ [] then
    db.put args.speechKey ⟨.hash (Fields.insertAll [] (flatten fields)),
      some (db.now + (args.speechTtl * 1000).toNat)⟩
  else db

theorem repairSpeech_eq (fields : LuaTable) (db : Db Key) (hfits : Fits cjsonDecode args)
    (hspeech : args.writeSpeech = true → 1 ≤ args.speechTtl ∧
      cjsonDecode args.speechJson = .table fields) :
    repairSpeech args fields db = (.ok (), speechWritten args fields db) := by
  unfold repairSpeech speechWritten
  by_cases hwrite : args.writeSpeech = true
  swap
  · simp [hwrite]
  obtain ⟨httl, hdecode⟩ := hspeech hwrite
  have hlength := hfits hwrite fields hdecode
  rw [if_pos hwrite]
  cases hlive : db.live args.speechKey with
  | some entry =>
    have hexists : «exists» args.speechKey db = (.ok 1, db) := by simp [«exists», hlive]
    rw [Script.bind_of_ok hexists]
    simp
  | none =>
    have hexists : «exists» args.speechKey db = (.ok 0, db) := by simp [«exists», hlive]
    rw [Script.bind_of_ok hexists, if_pos rfl, writeHash]
    by_cases hempty : flatten fields = []
    · simp [hempty]
    · have hpos : 0 < (flatten fields).length := List.length_pos_iff.mpr hempty
      rw [if_pos (by omega), if_neg (by unfold maxStack; omega), hset_expire _ hlive httl]
      simp [hwrite, hempty]

variable {fields : LuaTable}

theorem speechWritten_live_of_ne {key : Key} (h : key ≠ args.speechKey) :
    (speechWritten args fields db).live key = db.live key := by
  unfold speechWritten
  split
  · exact Db.live_put_of_ne db h _
  · rfl

def pushed (args : PublishArgs) (db : Db Key) : Db Key :=
  if args.mode = "list" then db.store args.queue (.list (args.payload :: db.list args.queue))
  else db.store args.queue (.stream ((db.stream args.queue).add [("event", args.payload)]))

theorem pushed_live_of_ne {key : Key} (h : key ≠ args.queue) :
    (pushed args db).live key = db.live key := by
  unfold pushed
  split <;> exact Db.live_store_of_ne db h _

theorem push_eq (hmode : args.mode = "list" ∨ args.mode = "stream")
    (hqueue : db.kind args.queue = "none" ∨ db.kind args.queue = args.mode) :
    ∃ messageId, push args db = (.ok messageId, pushed args db) := by
  unfold push pushed
  rcases hmode with hmode | hmode
  · rw [hmode] at hqueue
    have hread := readList_of_kind hqueue
    simp only [hmode, if_true, lpush]
    rw [Script.bind_assoc, Script.bind_of_ok hread]
    exact ⟨_, rfl⟩
  · rw [hmode] at hqueue
    have hread := readStream_of_kind hqueue
    have hne : ("stream" : String) ≠ "list" := by decide
    simp only [hmode, if_neg hne, xadd]
    rw [Script.bind_assoc, Script.bind_of_ok hread]
    exact ⟨_, rfl⟩

def Conflicting (args : PublishArgs) (record : Fields) : Prop :=
  (record.lookup "payloadHash").getD "" ≠ "" ∧
    record.lookup "payloadHash" ≠ some args.payloadHash

def withRecord (args : PublishArgs) (record : Fields) (db : Db Key) : Db Key :=
  db.put args.dedupe ⟨.hash record, some (db.now + (args.ttl * 1000).toNat)⟩

/-- The replies and effects of the publish script. A script that meets a dedupe record is
refused by its preflight only. -/
inductive PublishOutcome (cjsonDecode : String → Decoded) (args : PublishArgs) (db : Db Key) :
    Except Error (String × String × String) → Db Key → Prop where
  | refused (error : Error)
      (hrefused : preflight cjsonDecode args db = (.error error, db) ∨ db.live args.dedupe = none) :
      PublishOutcome cjsonDecode args db (.error error) db
  | conflict (record : Fields) (messageId queue : String)
      (hrecord : db.hash? args.dedupe = some record) (hconflict : Conflicting args record) :
      PublishOutcome cjsonDecode args db (.ok ("conflict", messageId, queue)) db
  | duplicate (fields : LuaTable) (record : Fields) (messageId queue : String)
      (hcleared : Cleared cjsonDecode args db fields)
      (hrecord : db.hash? args.dedupe = some record) (hsame : ¬ Conflicting args record) :
      PublishOutcome cjsonDecode args db (.ok ("duplicate", messageId, queue))
        (withRecord args record (speechWritten args fields db))
  | published (fields : LuaTable) (messageId : String)
      (hcleared : Cleared cjsonDecode args db fields) (habsent : db.live args.dedupe = none) :
      PublishOutcome cjsonDecode args db (.ok ("published", messageId, args.queueText))
        (speechWritten args fields
          (withRecord args (Fields.insertAll [] (dedupeRecord args messageId)) (pushed args db)))

structure Separate (args : PublishArgs) : Prop where
  dedupe_queue : args.dedupe ≠ args.queue
  dedupe_speech : args.dedupe ≠ args.speechKey
  queue_speech : args.queue ≠ args.speechKey

theorem answerExisting_outcome {record : Fields} (hfits : Fits cjsonDecode args)
    (hseparate : Separate args) (hcleared : Cleared cjsonDecode args db fields)
    (hrecord : db.hash? args.dedupe = some record) :
    PublishOutcome cjsonDecode args db (answerExisting args fields db).1
      (answerExisting args fields db).2 := by
  unfold answerExisting
  rw [Script.bind_of_ok (hget_of_hash hrecord _), Script.bind_of_ok (hget_of_hash hrecord _),
    Script.bind_of_ok (hget_of_hash hrecord _)]
  by_cases hconflict : (record.lookup "payloadHash").getD "" ≠ "" ∧
      record.lookup "payloadHash" ≠ some args.payloadHash
  · rw [if_pos hconflict]
    exact .conflict record _ _ hrecord hconflict
  rw [if_neg hconflict, Script.bind_of_ok
    (repairSpeech_eq fields db hfits (fun h => ⟨(hcleared.speech h).1, (hcleared.speech h).2.1⟩))]
  obtain ⟨expireAt, hlive⟩ := hash?_eq_some.mp hrecord
  have hkept : (speechWritten args fields db).live args.dedupe = some ⟨.hash record, expireAt⟩ := by
    rw [speechWritten_live_of_ne hseparate.dedupe_speech, hlive]
  rw [Script.bind_of_ok (expire_of_live hkept hcleared.ttl)]
  exact .duplicate fields record _ _ hcleared hrecord hconflict

theorem publishNew_outcome (hfits : Fits cjsonDecode args) (hseparate : Separate args)
    (hcleared : Cleared cjsonDecode args db fields) (habsent : db.live args.dedupe = none) :
    PublishOutcome cjsonDecode args db (publishNew args fields db).1
      (publishNew args fields db).2 := by
  unfold publishNew
  have hlock : ∃ locked, «exists» args.lock db = (.ok locked, db) := ⟨_, rfl⟩
  obtain ⟨locked, hlock⟩ := hlock
  rw [Script.bind_of_ok hlock]
  by_cases hlocked : args.checkLock = true ∧ locked = 1
  · rw [if_pos hlocked]
    exact .refused _ (.inr habsent)
  obtain ⟨messageId, hpush⟩ := push_eq hcleared.mode hcleared.queue
  have hdedupe : (pushed args db).live args.dedupe = none := by
    rw [pushed_live_of_ne hseparate.dedupe_queue, habsent]
  have hspeech := repairSpeech_eq fields
    (withRecord args (Fields.insertAll [] (dedupeRecord args messageId)) (pushed args db)) hfits
    (fun h => ⟨(hcleared.speech h).1, (hcleared.speech h).2.1⟩)
  rw [if_neg hlocked, Script.bind_of_ok hpush, hset_expire _ hdedupe hcleared.ttl]
  rw [withRecord] at hspeech
  rw [Script.bind_of_ok hspeech]
  exact .published fields messageId hcleared habsent

theorem publishLua_outcome (db : Db Key) (hfits : Fits cjsonDecode args)
    (hseparate : Separate args) :
    PublishOutcome cjsonDecode args db (publishLua cjsonDecode args db).1
      (publishLua cjsonDecode args db).2 := by
  unfold publishLua
  rcases preflight_cases with
    ⟨error, herror⟩ | ⟨fields, hfields, hcleared⟩
  · rw [Script.bind_of_error herror]
    exact .refused error (.inl herror)
  rw [Script.bind_of_ok hfields]
  simp only
  rcases hcleared.dedupe with hkind | hkind
  · have hne : ("none" : String) ≠ "hash" := by decide
    rw [hkind, if_neg hne]
    exact publishNew_outcome hfits hseparate hcleared (kind_eq_none.mp hkind)
  · rw [if_pos hkind]
    obtain ⟨record, hrecord⟩ := kind_eq_hash.mp hkind
    exact answerExisting_outcome hfits hseparate hcleared hrecord

end AiBuddy.Queue.AtomicPublish
