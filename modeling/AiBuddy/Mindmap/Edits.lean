import AiBuddy.Mindmap.Layout
import AiBuddy.Mindmap.Store
import AiBuddy.Misc.Keyed

/-!
# Edits and versions of mind maps

`remove_node` and `reserve`, `services/mindmap/store.py:96` and `:309`. Each reads, computes and
writes in separate commands, any of which may fail before or after the server has carried it out.
Of a document the fields are kept that they read. `uuid4` gives a number that has never been given,
at the insert.
-/

namespace AiBuddy.Mindmap.Edits

open Program

abbrev Slot := String × String

/-- A document of `spaceMindmaps`. -/
structure MapDoc where
  id : Nat
  slot : Slot
  status : Status
  version : Nat
  graph : MindmapGraph
  deriving DecidableEq

structure State where
  maps : List MapDoc
  made : Nat
  /-- The updates of `remove_node` that have landed, each with its mind map and node. -/
  removed : List (Nat × String)
  /-- The inserts of `reserve` that have landed, each with its version. -/
  reserved : List (Slot × Nat)

inductive EditError where
  | connection
  | valueError (message : String)
  deriving DecidableEq

inductive Command : Type → Type
  | get (mapId : Nat) : Command (Option MapDoc)
  /-- The update of `remove_node`, which has read a graph. -/
  | setGraph (mapId : Nat) (target : String) (read : MindmapGraph) : Command (Option MapDoc)
  | findLatest (slot : Slot) : Command Nat
  | insert (slot : Slot) (version : Nat) : Command MapDoc
  | findSettled (slot : Slot) : Command (List MapDoc)
  | deleteMany (ids : List Nat) : Command Unit

namespace State

variable (s : State)

def versionsOf (slot : Slot) : List Nat :=
  (s.maps.filter (·.slot = slot)).map (·.version)

def latest (slot : Slot) : Nat := (s.versionsOf slot).max?.getD 0

/-- The document that `reserve` inserts. -/
def newDoc (slot : Slot) (version : Nat) : MapDoc := ⟨s.made, slot, .queued, version, ⟨[], []⟩⟩

def settled (slot : Slot) : List MapDoc :=
  ((Keyed.sort MapDoc.version (s.maps.filter fun doc =>
    doc.slot = slot ∧ (doc.status = .ready ∨ doc.status = .failed))).reverse).take 50

def setGraph (mapId : Nat) (target : String) (graph : MindmapGraph) : State where
  maps := s.maps.map fun doc => if doc.id = mapId then { doc with graph } else doc
  made := s.made
  removed := s.removed ++ [(mapId, target)]
  reserved := s.reserved

def insert (slot : Slot) (version : Nat) : State where
  maps := s.maps ++ [s.newDoc slot version]
  made := s.made + 1
  removed := s.removed
  reserved := s.reserved ++ [(slot, version)]

def deleteMany (ids : List Nat) : State := { s with maps := s.maps.filter (·.id ∉ ids) }

def run {α : Type} (command : Command α) (s : State) : Except EditError α × State :=
  match command with
  | .get mapId => (.ok (s.maps.find? (·.id = mapId)), s)
  | .setGraph mapId target read =>
    match s.maps.find? (·.id = mapId) with
    | some doc =>
      let graph := read.without target
      (.ok (some { doc with graph }), s.setGraph mapId target graph)
    | none => (.ok none, s)
  | .findLatest slot => (.ok (s.latest slot), s)
  | .insert slot version => (.ok (s.newDoc slot version), s.insert slot version)
  | .findSettled slot => (.ok (s.settled slot), s)
  | .deleteMany ids => (.ok (), s.deleteMany ids)

end State

abbrev Editing := Raising (Remote EditError Command) EditError

def ask {α : Type} (command : Command α) : Editing α := Program.send id command

def removeNode (mapId : Nat) (nodeId : String) : Editing (Option MapDoc) := do
  let document ← ask (.get mapId)
  match document with
  | none => return none
  | some document =>
    let target := Text.strip nodeId
    if target = "" then throw (.valueError "nodeId is required")
    else if (document.graph.without target).nodes.length = document.graph.nodes.length then
      throw (.valueError "Node not found on this mind map.")
    else ask (.setGraph mapId target document.graph)

def nextVersion (slot : Slot) : Editing Nat := do
  let latest ← ask (.findLatest slot)
  return latest + 1

def maxVersionsPerSpace : Nat := 5

def pruneOldVersions (slot : Slot) : Editing Unit := do
  let docs ← ask (.findSettled slot)
  if docs.length ≤ maxVersionsPerSpace then return ()
  else ask (.deleteMany ((docs.drop maxVersionsPerSpace).map (·.id)))

def reserve (slot : Slot) : Editing (Option MapDoc) := do
  let version ← nextVersion slot
  let doc ← ask (.insert slot version)
  pruneOldVersions slot
  return some doc

abbrev Condition := ∀ {α : Type}, Command α → State → Prop

def edits (condition : Condition) : Semantics (Remote EditError Command) State :=
  Remote.semantics fun command s reply s' =>
    condition command s ∧ Answers .connection (State.run command) s reply s'

def Calls (_ : State)
    (prog : Program (Remote EditError Command) (Except EditError (Option MapDoc))) : Prop :=
  (∃ mapId nodeId, prog = (removeNode mapId nodeId).run) ∨ ∃ slot, prog = (reserve slot).run

def Elsewhere (s s' : State) : Prop :=
  ∃ status : MapDoc → Status,
    s' = { s with maps := s.maps.map fun doc => { doc with status := status doc } }

abbrev EditPool := Pool (Remote EditError Command) (Except EditError (Option MapDoc)) State

abbrev EditRun (condition : Condition) (start : State) : EditPool → Prop :=
  Pool.Run (edits condition) Calls Elsewhere start

def anyhow : Condition := fun _ _ => True

/-- What a call has read has not changed when it writes: the graph of the mind map, and the latest
version of the space. -/
def unchanged : Condition := fun command s =>
  match command with
  | .setGraph mapId _ read => ∀ doc ∈ s.maps, doc.id = mapId → doc.graph = read
  | .insert slot version => version = s.latest slot + 1
  | _ => True

def Lacks (graph : MindmapGraph) (target : String) : Prop :=
  target ∉ graph.nodes.map (·.id) ∧
    ∀ edge ∈ graph.edges, edge.source ≠ target ∧ edge.target ≠ target

def State.RemovedStay (s : State) : Prop :=
  ∀ removal ∈ s.removed, ∀ doc ∈ s.maps, doc.id = removal.1 → Lacks doc.graph removal.2

def State.VersionsDiffer (s : State) : Prop := s.reserved.Nodup

end AiBuddy.Mindmap.Edits
