import AiBuddy.Redis.Db

/-!
# Stream commands

Streams with consumer groups. An entry that a group delivered stays in the group's
pending list until it is acknowledged, also when the entry itself is deleted.
-/

namespace Redis

variable {K : Type}

def idText (id : Nat) : String := (id : Int).repr ++ "-0"

namespace Stream

def add (stream : Stream) (fields : Fields) : Stream :=
  { stream with
    entries := stream.entries ++ [(stream.lastId + 1, fields)]
    lastId := stream.lastId + 1 }

def delete (stream : Stream) (ids : List Nat) : Stream :=
  { stream with entries := stream.entries.filter (fun entry => entry.1 ∉ ids) }

def setGroup (stream : Stream) (name : String) (group : Group) : Stream :=
  { stream with groups := Function.update stream.groups name (some group) }

def entryAt (stream : Stream) (id : Nat) : Option Fields := stream.entries.lookup id

/-- The entries after an id, oldest first, at most `count`. -/
def range (stream : Stream) (after count : Nat) : List (Nat × Fields) :=
  (stream.entries.filter (fun entry => after < entry.1)).take count

end Stream

namespace Group

def ack (group : Group) (id : Nat) : Group :=
  { group with pending := group.pending.filter (fun row => row.id ≠ id) }

def claim (group : Group) (consumer : String) (now : Nat) (ids : List Nat) : Group :=
  { group with
    pending := group.pending.map (fun row =>
      if row.id ∈ ids then
        { row with consumer := consumer, deliveredAt := now, deliveries := row.deliveries + 1 }
      else row) }

def deliver (group : Group) (consumer : String) (now : Nat) (ids : List Nat) : Group where
  lastDelivered := ids.foldl max group.lastDelivered
  pending := group.pending ++
    ids.map (fun id => { id := id, consumer := consumer, deliveredAt := now, deliveries := 1 })

end Group

def readStream (key : K) : Script K Stream := fun db =>
  match db.live key with
  | none => (.ok Stream.empty, db)
  | some ⟨.stream stream, _⟩ => (.ok stream, db)
  | some _ => (.error .wrongType, db)

variable {db : Db K} {key : K}

theorem readStream_of_kind (h : db.kind key = "none" ∨ db.kind key = "stream") :
    readStream key db = (.ok (db.stream key), db) := by
  unfold Db.kind at h
  unfold readStream Db.stream
  split at h <;> simp_all

theorem stream_entries_of_kind (h : db.kind key = "none" ∨ db.kind key = "list") :
    (db.stream key).entries = [] := by
  unfold Db.kind at h
  unfold Db.stream
  split at h <;> simp_all [Stream.empty]

theorem list_of_kind (h : db.kind key = "none" ∨ db.kind key = "stream") : db.list key = [] := by
  unfold Db.kind at h
  unfold Db.list
  split at h <;> simp_all

variable [DecidableEq K]

def writeStream (key : K) (stream : Stream) : Script K Unit := fun db =>
  (.ok (), db.store key (.stream stream))

def xadd (key : K) (fields : Fields) : Script K Nat := do
  let stream ← readStream key
  writeStream key (stream.add fields)
  return stream.lastId + 1

def xdel (key : K) (id : Nat) : Script K Int := do
  let stream ← readStream key
  match stream.entryAt id with
  | none => return 0
  | some _ =>
    writeStream key (stream.delete [id])
    return 1

def xrange (key : K) (after count : Nat) : Script K (List (Nat × Fields)) := do
  let stream ← readStream key
  return stream.range after count

def xrangeOne (key : K) (id : Nat) : Script K (Option Fields) := do
  let stream ← readStream key
  return stream.entryAt id

def xgroupCreate (key : K) (name : String) : Script K Unit := do
  let stream ← readStream key
  match stream.groups name with
  | some _ => .fail .busyGroup
  | none => writeStream key (stream.setGroup name ⟨0, []⟩)

def readGroup (key : K) (name : String) : Script K (Stream × Group) := do
  let stream ← readStream key
  match stream.groups name with
  | some group => return (stream, group)
  | none => .fail .noGroup

def clock : Script K Nat := fun db => (.ok db.now, db)

def xreadgroup (key : K) (name consumer : String) (count : Nat) :
    Script K (List (Nat × Fields)) := do
  let (stream, group) ← readGroup key name
  let now ← clock
  let entries := stream.range group.lastDelivered count
  if entries.isEmpty then return []
  else
    writeStream key (stream.setGroup name (group.deliver consumer now (entries.map (·.1))))
    return entries

def xack (key : K) (name : String) (id : Nat) : Script K Int := do
  let stream ← readStream key
  match stream.groups name with
  | none => return 0
  | some group =>
    if group.pending.any (fun row => row.id = id) then
      writeStream key (stream.setGroup name (group.ack id))
      return 1
    else return 0

def xpendingRange (key : K) (name : String) (count : Nat) : Script K (List PendingRow) := do
  let (_, group) ← readGroup key name
  return group.pending.take count

/-- `XINFO GROUPS key`, the row of one group: what is pending and what was never delivered. -/
def xinfoGroup (key : K) (name : String) : Script K (Option (Nat × Nat)) := do
  let stream ← readStream key
  match stream.groups name with
  | none => return none
  | some group =>
    return some (group.pending.length,
      (stream.entries.filter (fun entry => group.lastDelivered < entry.1)).length)

/-- `XAUTOCLAIM key name consumer minIdle 0-0 COUNT count`: the entries claimed. Rows whose
entry was deleted are taken off the pending list. -/
def xautoclaim (key : K) (name consumer : String) (minIdle count : Nat) :
    Script K (List (Nat × Fields)) := do
  let (stream, group) ← readGroup key name
  let now ← clock
  let rows := (group.pending.filter (fun row => row.deliveredAt + minIdle ≤ now)).take count
  let gone := (rows.filter (fun row => (stream.entryAt row.id).isNone)).map (·.id)
  let claimed := rows.filterMap (fun row => (stream.entryAt row.id).map
    (fun fields => (row.id, fields)))
  let kept : Group := { group with pending := group.pending.filter (fun row => row.id ∉ gone) }
  writeStream key (stream.setGroup name (kept.claim consumer now (claimed.map (·.1))))
  return claimed

/-- `XCLAIM key name consumer minIdle id JUSTID`, which refreshes the idle time only. -/
def xclaimJustId (key : K) (name consumer : String) (minIdle id : Nat) : Script K (List Nat) := do
  let (stream, group) ← readGroup key name
  let now ← clock
  let claims (row : PendingRow) : Bool := row.id = id && row.deliveredAt + minIdle ≤ now
  writeStream key (stream.setGroup name
    { group with
      pending := group.pending.map (fun row =>
        if claims row then { row with consumer := consumer, deliveredAt := now } else row) })
  return (group.pending.filter claims).map (·.id)

end Redis
