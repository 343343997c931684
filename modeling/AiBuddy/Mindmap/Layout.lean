import AiBuddy.Misc.Json
import AiBuddy.Misc.Text

/-!
# The graph of a mind map

`services/mindmap/layout.py`. What Python reads from the Unicode tables, and how it writes a value
that is no text, are parameters. Positions are floats and are left out, and so are the constants of
the style.
-/

namespace AiBuddy.Mindmap

open Json

structure PyHost where
  isalnum : Char → Bool
  /-- `str(value)` of a value that is no text. -/
  repr : Value → String
  nonzero : String → Bool

def PyHost.truthy (host : PyHost) : Value → Bool
  | .null => false
  | .bool b => b
  | .int n => n ≠ 0
  | .float literal => host.nonzero literal
  | .str text => text ≠ ""
  | .arr items => items.toList ≠ []
  | .obj members => members ≠ .nil

def PyHost.str (host : PyHost) : Value → String
  | .str text => text
  | value => host.repr value

/-- `payload.get(name)`, where `None` stands for a name that is missing. -/
def valueAt (name : String) (payload : Members) : Value := (payload.get? name).getD .null

/-- `str(payload.get(name) or default)`. -/
def PyHost.textOr (host : PyHost) (name default : String) (payload : Members) : String :=
  let value := valueAt name payload
  if host.truthy value then host.str value else default

/-- The items of `payload.get(name)`, where it is a list. -/
def listAt (name : String) (payload : Members) : List Value :=
  match valueAt name payload with
  | .arr items => items.toList
  | _ => []

/-- `[str(item).strip()[:size] for item in items if str(item).strip()][:count]`. -/
def PyHost.texts (host : PyHost) (size count : Nat) (items : List Value) : List String :=
  (((items.map fun item => Text.strip (host.str item)).filter (· ≠ "")).map
    (Text.take size)).take count

def orNone (text : String) : Option String := if text ≠ "" then some text else none

inductive MindmapTone where
  | hub
  | cyan
  | green
  | pink
  | purple
  | yellow
  | blue
  | lavender
  | magenta
  deriving DecidableEq

def MindmapTone.stroke : MindmapTone → String
  | .cyan => "#22d3ee"
  | .green => "#22c55e"
  | .pink => "#ec4899"
  | .purple => "#a855f7"
  | .yellow => "#eab308"
  | .blue => "#3b82f6"
  | .lavender => "#8b5cf6"
  | .magenta => "#d946ef"
  | .hub => "#0f172a"

def branchTones : List MindmapTone :=
  [.cyan, .green, .pink, .purple, .yellow, .blue, .lavender, .magenta]

inductive MindmapNodeKind where
  | hub
  | branch
  | card
  deriving DecidableEq

inductive MindmapVariant where
  | default
  | compact
  deriving DecidableEq

structure MindmapNode where
  id : String
  kind : MindmapNodeKind
  title : String
  subtitle : Option String := none
  items : List String := []
  tone : MindmapTone
  tags : List String := []
  noteCount : Option Nat := none
  variant : Option MindmapVariant := none
  deriving DecidableEq

structure MindmapEdge where
  id : String
  source : String
  target : String
  label : Option String := none
  stroke : String
  deriving DecidableEq

structure MindmapGraph where
  nodes : List MindmapNode
  edges : List MindmapEdge
  deriving DecidableEq

def MindmapGraph.add (graph : MindmapGraph) (node : MindmapNode) (edge : MindmapEdge) :
    MindmapGraph where
  nodes := graph.nodes ++ [node]
  edges := graph.edges ++ [edge]

/-- What `remove_node` leaves, `store.py:320`. -/
def MindmapGraph.without (graph : MindmapGraph) (target : String) : MindmapGraph where
  nodes := graph.nodes.filter (·.id ≠ target)
  edges := graph.edges.filter fun edge => edge.source ≠ target ∧ edge.target ≠ target

def safeId (host : PyHost) (raw fallback : String) : String :=
  let isMark : Char → Bool := fun ch => ch = '-' ∨ ch = '_'
  let value := (Text.strip raw).toList.map fun ch =>
    if host.isalnum ch || isMark ch then ch else '-'
  let value := ((value.dropWhile isMark).reverse.dropWhile isMark).reverse
  Text.take 64 (if value ≠ [] then .ofList value else fallback)

def hubId : String := "hub"

def edgeId (source target : String) : String := "e-" ++ source ++ "-" ++ target

def branchFallback (index : Nat) : String := "branch-" ++ (index : Int).repr

def branchId (host : PyHost) (branch : Members) (index : Nat) : String :=
  safeId host (host.textOr "id" (branchFallback index) branch) (branchFallback index)

def cardFallback (branchId : String) (index : Nat) : String :=
  branchId ++ "-card-" ++ (index : Int).repr

def cardId (host : PyHost) (branchId : String) (card : Members) (index : Nat) : String :=
  safeId host (host.textOr "id" (cardFallback branchId index) card) (cardFallback branchId index)

/-- The node of a card, `:115`. -/
def cardNode (host : PyHost) (branchId : String) (tone : MindmapTone) (card : Members)
    (index : Nat) : MindmapNode :=
  let items := host.texts 100 6 (listAt "items" card)
  { id := cardId host branchId card index
    kind := .card
    title := Text.take 70 (Text.strip (host.textOr "title" "Detail" card))
    items
    tone
    tags := host.texts 24 4 (listAt "tags" card)
    variant := some (if items.length ≤ 2 then .compact else .default)
    noteCount := if items.length ≠ 0 then some items.length else none }

def addCard (host : PyHost) (branchId : String) (tone : MindmapTone) (graph : MindmapGraph)
    (item : Value × Nat) : MindmapGraph :=
  match item with
  | (.obj card, index) =>
    let id := cardId host branchId card index
    graph.add (cardNode host branchId tone card index)
      { id := edgeId branchId id, source := branchId, target := id, stroke := tone.stroke }
  | _ => graph

def cardsOf (branch : Members) : List Value := (listAt "cards" branch).take 5

def addBranch (host : PyHost) (graph : MindmapGraph) (item : Members × Nat) : MindmapGraph :=
  let (branch, index) := item
  let tone := branchTones.getD (index % branchTones.length) .cyan
  let id := branchId host branch index
  let theme := "Theme " ++ (index + 1 : Int).repr
  let graph := graph.add
    { id
      kind := .branch
      title := Text.take 60 (Text.strip (host.textOr "title" theme branch))
      tone }
    { id := edgeId hubId id
      source := hubId
      target := id
      label := orNone (Text.take 48 (Text.strip (host.textOr "edgeLabel" "" branch)))
      stroke := tone.stroke }
  (cardsOf branch).zipIdx.foldl (addCard host id tone) graph

def usableBranches (payload : Members) : List Members :=
  ((listAt "branches" payload).filterMap fun
    | .obj branch => some branch
    | _ => none).take 8

def hubNode (host : PyHost) (payload : Members) (spaceName : String) : MindmapNode :=
  let named := if spaceName ≠ "" then spaceName else "Space"
  let title := Text.strip (host.textOr "spaceTitle" named payload)
  let subtitle :=
    Text.strip (host.textOr "hubSubtitle" "Key notes, tasks, and meeting themes" payload)
  { id := hubId
    kind := .hub
    title := Text.take 80 (if title ≠ "" then title else "Space")
    subtitle := orNone (Text.take 120 subtitle)
    tone := .hub }

/-- The branch of a space without any, `:141`. -/
def addOverview (graph : MindmapGraph) : MindmapGraph :=
  graph.add { id := "branch-overview", kind := .branch, title := "Overview", tone := .cyan }
    { id := edgeId hubId "branch-overview"
      source := hubId
      target := "branch-overview"
      stroke := MindmapTone.cyan.stroke }

def graphFromLlmPayload (host : PyHost) (payload : Members) (spaceName : String) : MindmapGraph :=
  let graph := (usableBranches payload).zipIdx.foldl (addBranch host)
    ⟨[hubNode host payload spaceName], []⟩
  if graph.nodes.length = 1 then addOverview graph else graph

end AiBuddy.Mindmap
