import AiBuddy.Redis.Streams

/-!
# What commands change

A script frames a key when whatever happens the entry under it is the same
afterwards. Every command frames the keys it does not name. The list and set
commands come with what they do to the key they name.
-/

namespace Redis

variable {K : Type} {α β : Type}

def Script.Frames (script : Script K α) (key : K) : Prop :=
  ∀ db, (script db).2.live key = db.live key

namespace Script

variable {key : K}

theorem frames_pure {value : α} : (pure value : Script K α).Frames key := fun _ => rfl

theorem frames_fail {error : Error} : (Script.fail error : Script K α).Frames key := fun _ => rfl

theorem Frames.bind {first : Script K α} {next : α → Script K β} (hfirst : first.Frames key)
    (hnext : ∀ value, (next value).Frames key) : (first >>= next).Frames key := by
  intro db
  have h := hfirst db
  rw [bind_apply]
  rcases hrun : first db with ⟨_ | value, db'⟩ <;> rw [hrun] at h
  · exact h
  · exact (hnext value db').trans h

end Script

def Script.Reads (script : Script K α) : Prop := ∀ db, (script db).2 = db

theorem Script.Reads.frames {script : Script K α} (h : script.Reads) (key : K) :
    script.Frames key := fun db => by rw [h db]

theorem Script.Reads.bind {first : Script K α} {next : α → Script K β} (hfirst : first.Reads)
    (hnext : ∀ value, (next value).Reads) : (first >>= next).Reads := by
  intro db
  have h := hfirst db
  rw [Script.bind_apply]
  rcases hrun : first db with ⟨_ | value, db'⟩ <;> rw [hrun] at h
  · exact h
  · exact (hnext value db').trans h

def Script.Along (rel : Db K → Db K → Prop) (script : Script K α) : Prop :=
  ∀ db, rel db (script db).2

theorem Script.Reads.along {script : Script K α} {rel : Db K → Db K → Prop} (h : script.Reads)
    (hrefl : ∀ db, rel db db) : script.Along rel := by
  intro db
  rw [h db]
  exact hrefl db

theorem Script.Along.bind {first : Script K α} {next : α → Script K β} {rel : Db K → Db K → Prop}
    (htrans : ∀ db₁ db₂ db₃, rel db₁ db₂ → rel db₂ db₃ → rel db₁ db₃) (hfirst : first.Along rel)
    (hnext : ∀ value, (next value).Along rel) : (first >>= next).Along rel := by
  intro db
  have h := hfirst db
  rw [Script.bind_apply]
  rcases hrun : first db with ⟨_ | value, db'⟩ <;> rw [hrun] at h
  · exact h
  · exact htrans _ _ _ h (hnext value db')

theorem reads_readList (key : K) : (readList key).Reads := by
  intro db
  unfold readList
  split <;> rfl

theorem reads_readStream (key : K) : (readStream key).Reads := by
  intro db
  unfold readStream
  split <;> rfl

theorem reads_readGroup {key : K} {name : String} : (readGroup key name).Reads := by
  refine (reads_readStream key).bind fun stream => ?_
  cases stream.groups name <;> exact fun _ => rfl

theorem reads_clock : (clock : Script K Nat).Reads := fun _ => rfl

theorem reads_llen (key : K) : (llen key).Reads := (reads_readList key).bind fun _ _ => rfl

theorem reads_lindexLast (key : K) : (lindexLast key).Reads :=
  (reads_readList key).bind fun _ _ => rfl

theorem reads_sismember (key : K) (member : String) : (sismember key member).Reads := by
  intro db
  unfold sismember
  split <;> rfl

theorem reads_hgetall (key : K) : (hgetall key).Reads := by
  intro db
  unfold hgetall
  split <;> rfl

theorem reads_xpendingRange (key : K) (name : String) (count : Nat) :
    (xpendingRange key name count).Reads := (reads_readGroup).bind fun _ _ => rfl

theorem reads_xrangeOne (key : K) (id : Nat) : (xrangeOne key id).Reads :=
  (reads_readStream key).bind fun _ _ => rfl

theorem reads_xrange (key : K) (after count : Nat) : (xrange key after count).Reads :=
  (reads_readStream key).bind fun _ _ => rfl

theorem reads_xinfoGroup (key : K) (name : String) : (xinfoGroup key name).Reads := by
  refine (reads_readStream key).bind fun stream => ?_
  cases stream.groups name <;> exact fun _ => rfl

section Writes

variable [DecidableEq K] {key other : K}

theorem frames_writeList (h : other ≠ key) (items : List String) :
    (writeList key items).Frames other := by
  intro db
  show (db.storeList key items).live other = db.live other
  unfold Db.storeList
  split
  · exact Db.live_remove_of_ne db h
  · exact Db.live_store_of_ne db h _

theorem frames_writeStream (h : other ≠ key) {stream : Stream} :
    (writeStream key stream).Frames other := fun db => Db.live_store_of_ne db h _

theorem frames_lpush (h : other ≠ key) (item : String) : (lpush key item).Frames other :=
  ((reads_readList key).frames other).bind fun _ =>
    (frames_writeList h _).bind fun _ => Script.frames_pure

theorem frames_lrem (h : other ≠ key) (item : String) : (lrem key item).Frames other := by
  refine ((reads_readList key).frames other).bind fun items => ?_
  split
  · exact (frames_writeList h _).bind fun _ => Script.frames_pure
  · exact Script.frames_pure

theorem frames_lmoveRightLeft {source destination : K} (hsource : other ≠ source)
    (hdestination : other ≠ destination) :
    (lmoveRightLeft source destination).Frames other := by
  refine ((reads_readList source).frames other).bind fun items => ?_
  cases items.getLast? with
  | none => exact Script.frames_pure
  | some item =>
    refine ((reads_readList destination).frames other).bind fun _ => ?_
    refine (frames_writeList hsource _).bind fun _ => ?_
    refine ((reads_readList destination).frames other).bind fun _ => ?_
    exact (frames_writeList hdestination _).bind fun _ => Script.frames_pure

section

variable (h : other ≠ key)

include h

theorem frames_sadd (member : String) : (sadd key member).Frames other := by
  intro db
  unfold sadd
  split
  · exact Db.live_store_of_ne db h _
  · split
    · rfl
    · exact Db.live_store_of_ne db h _
  · rfl

theorem frames_xadd (fields : Fields) : (xadd key fields).Frames other :=
  ((reads_readStream key).frames other).bind fun _ =>
    (frames_writeStream h).bind fun _ => Script.frames_pure

theorem frames_xdel (id : Nat) : (xdel key id).Frames other := by
  refine ((reads_readStream key).frames other).bind fun stream => ?_
  cases stream.entryAt id with
  | none => exact Script.frames_pure
  | some _ => exact (frames_writeStream h).bind fun _ => Script.frames_pure

theorem frames_xgroupCreate (name : String) : (xgroupCreate key name).Frames other := by
  refine ((reads_readStream key).frames other).bind fun stream => ?_
  cases stream.groups name with
  | none => exact frames_writeStream h
  | some _ => exact Script.frames_fail

theorem frames_xreadgroup (name consumer : String) (count : Nat) :
    (xreadgroup key name consumer count).Frames other := by
  refine ((reads_readGroup).frames other).bind fun read => ?_
  refine (reads_clock.frames other).bind fun _ => ?_
  show Script.Frames (if _ then _ else _) other
  split
  · exact Script.frames_pure
  · exact (frames_writeStream h).bind fun _ => Script.frames_pure

theorem frames_xack (name : String) (id : Nat) : (xack key name id).Frames other := by
  refine ((reads_readStream key).frames other).bind fun stream => ?_
  cases stream.groups name with
  | none => exact Script.frames_pure
  | some group =>
    show Script.Frames (if _ then _ else _) other
    split
    · exact (frames_writeStream h).bind fun _ => Script.frames_pure
    · exact Script.frames_pure

theorem frames_xautoclaim (name consumer : String) (minIdle count : Nat) :
    (xautoclaim key name consumer minIdle count).Frames other :=
  ((reads_readGroup).frames other).bind fun _ =>
    (reads_clock.frames other).bind fun _ =>
      (frames_writeStream h).bind fun _ => Script.frames_pure

end

end Writes

variable {db db' : Db K}

theorem Db.list_congr {key : K} (h : db'.live key = db.live key) : db'.list key = db.list key := by
  unfold Db.list
  rw [h]

theorem Db.set_congr {key : K} (h : db'.live key = db.live key) : db'.set key = db.set key := by
  unfold Db.set
  rw [h]

theorem readList_cases {key : K} {db : Db K} :
    readList key db = (.ok (db.list key), db) ∨
      ∃ error, readList key db = (.error error, db) ∧ db.list key = [] := by
  unfold readList Db.list
  rcases db.live key with _ | ⟨_ | _ | _ | _ | _, _⟩ <;> simp

theorem readStream_bind_list {key : K} {next : Stream → Script K β} {db : Db K} :
    db.list key = [] ∨ ((readStream key >>= next) db).2.live key = db.live key := by
  unfold Db.list
  split
  · rename_i items expireAt hlive
    right
    rw [Script.bind_of_error (by unfold readStream; rw [hlive])]
  · exact .inl rfl

theorem lindexLast_eq_ok {key : K} {item : Option String}
    (h : lindexLast key db = (.ok item, db')) : item = (db.list key).getLast? := by
  obtain ⟨items, db₁, hread, hrest⟩ := Script.bind_eq_ok h
  rcases readList_cases with hok | ⟨error, herror, -⟩
  · rw [hok] at hread
    cases hread
    cases hrest
    rfl
  · rw [herror] at hread
    cases hread

theorem sismember_eq_ok {key : K} {member : String} {n : Int}
    (h : sismember key member db = (.ok n, db')) :
    n = if member ∈ db.set key then 1 else 0 := by
  unfold sismember at h
  unfold Db.set
  split at h <;> cases h <;> simp_all

section Lists

variable [DecidableEq K]

@[simp] theorem Db.list_storeList_self (db : Db K) (key : K) (items : List String) :
    (db.storeList key items).list key = items := by
  unfold Db.storeList Db.list
  cases items <;> simp

theorem Db.list_storeList_of_ne (db : Db K) {key other : K} (h : other ≠ key)
    (items : List String) : (db.storeList key items).list other = db.list other :=
  Db.list_congr (frames_writeList h items db)

theorem list_lrem (key : K) (item : String) (db : Db K) :
    (lrem key item db).2.list key = (db.list key).erase item := by
  unfold lrem
  rcases readList_cases with hok | ⟨error, herror, hnil⟩
  · rw [Script.bind_of_ok hok]
    by_cases hmem : item ∈ db.list key
    · rw [if_pos hmem]
      exact Db.list_storeList_self db key _
    · rw [if_neg hmem, List.erase_of_not_mem hmem]
      rfl
  · rw [Script.bind_of_error herror, hnil]
    rfl

theorem lpush_cases (key : K) (item : String) (db : Db K) :
    lpush key item db =
        (.ok ((db.list key).length + 1), db.storeList key (item :: db.list key)) ∨
      ∃ error, lpush key item db = (.error error, db) := by
  unfold lpush
  rcases readList_cases with hok | ⟨error, herror, -⟩
  · rw [Script.bind_of_ok hok]
    exact .inl rfl
  · exact .inr ⟨error, Script.bind_of_error herror⟩

theorem lmoveRightLeft_cases {source destination : K} (hne : source ≠ destination) (db : Db K) :
    (∃ item db', lmoveRightLeft source destination db = (.ok (some item), db') ∧
        (db.list source).getLast? = some item ∧ db'.list source = (db.list source).dropLast ∧
        db'.list destination = item :: db.list destination) ∨
      (lmoveRightLeft source destination db).2 = db ∧
        ∀ item, (lmoveRightLeft source destination db).1 ≠ .ok (some item) := by
  unfold lmoveRightLeft
  rcases readList_cases with hok | ⟨error, herror, -⟩
  · rw [Script.bind_of_ok hok]
    cases hlast : (db.list source).getLast? with
    | none => exact .inr ⟨rfl, fun item h => by cases h⟩
    | some item =>
      simp only
      rcases readList_cases with hok' | ⟨error, herror, -⟩
      · left
        rw [Script.bind_of_ok hok']
        have hwritten : writeList source (db.list source).dropLast db =
          (.ok (), db.storeList source (db.list source).dropLast) := rfl
        rw [Script.bind_of_ok hwritten]
        have hkept := Db.list_storeList_of_ne db hne.symm (db.list source).dropLast
        have hread : readList destination (db.storeList source (db.list source).dropLast) =
            (.ok (db.list destination), db.storeList source (db.list source).dropLast) := by
          have hsame : (db.storeList source (db.list source).dropLast).live destination =
            db.live destination := frames_writeList hne.symm _ db
          unfold readList at hok' ⊢
          rw [hsame]
          split at hok' <;> simp_all
        rw [Script.bind_of_ok hread]
        exact ⟨item, _, rfl, rfl,
          (Db.list_storeList_of_ne _ hne _).trans (Db.list_storeList_self _ _ _),
          Db.list_storeList_self _ _ _⟩
      · right
        rw [Script.bind_of_error herror]
        exact ⟨rfl, fun item h => by cases h⟩
  · right
    rw [Script.bind_of_error herror]
    exact ⟨rfl, fun item h => by cases h⟩

theorem list_xadd (key : K) (fields : Fields) (db : Db K) {other : K} {item : String}
    (h : item ∈ db.list other) : item ∈ (xadd key fields db).2.list other := by
  by_cases hother : other = key
  · subst hother
    rcases readStream_bind_list
      with hnil | hlive
    · rw [hnil] at h
      cases h
    · exact (Db.list_congr hlive).symm ▸ h
  · rwa [Db.list_congr (frames_xadd hother fields db)]

theorem sadd_eq_ok {key : K} {member : String} {n : Int} (h : sadd key member db = (.ok n, db')) :
    ∀ other, other ∈ db'.set key ↔ other = member ∨ other ∈ db.set key := by
  intro other
  unfold sadd at h
  unfold Db.set
  split at h
  · rename_i hnone
    cases h
    simp [hnone]
  · rename_i members expireAt hlive
    split at h
    · rename_i hmem
      cases h
      simp only [hlive]
      exact ⟨.inr, fun h => h.elim (fun h => h ▸ hmem) id⟩
    · cases h
      simp [hlive]
  · cases h

end Lists

end Redis
