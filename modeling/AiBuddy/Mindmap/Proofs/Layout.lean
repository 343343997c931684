import AiBuddy.Mindmap.Layout
import AiBuddy.Misc.Rooted

/-!
# When the graph of a mind map is a tree

Every node but the hub is added with an edge from a node that is there. The graph is a tree if its
nodes and its edges have different ids, which depends on the ids of the payload after `_safe_id`.
-/

namespace AiBuddy.Mindmap

open Json Rooted

structure MindmapGraph.Tree (graph : MindmapGraph) : Prop where
  nodes : (graph.nodes.map (·.id)).Nodup
  edges : (graph.edges.map (·.id)).Nodup
  ends : ∀ edge ∈ graph.edges,
    edge.source ∈ graph.nodes.map (·.id) ∧ edge.target ∈ graph.nodes.map (·.id)
  incoming : ∀ node ∈ graph.nodes, node.kind ≠ .hub →
    graph.edges.countP (fun edge => edge.target = node.id) = 1
  reaches : ∀ node ∈ graph.nodes,
    Relation.ReflTransGen (Parent MindmapEdge.source MindmapEdge.target graph.edges) node.id hubId
  removal : ∀ node ∈ graph.nodes,
    (graph.without node.id).nodes.length + 1 = graph.nodes.length

def cardId? (host : PyHost) (branchId : String) : Value × Nat → Option String
  | (.obj card, index) => some (cardId host branchId card index)
  | _ => none

def branchLinks (host : PyHost) (item : Members × Nat) : List (String × String) :=
  let id := branchId host item.1 item.2
  (hubId, id) :: ((cardsOf item.1).zipIdx.filterMap (cardId? host id)).map fun card => (id, card)

/-- The links of the usable branches. The ids have been through `_safe_id`. -/
def links (host : PyHost) (payload : Members) : List (String × String) :=
  (usableBranches payload).zipIdx.flatMap (branchLinks host)

/-- `hub`, the branches and the cards have different ids, and no two links read the same. -/
structure IdsDiffer (host : PyHost) (payload : Members) : Prop where
  nodes : (hubId :: (links host payload).map Prod.snd).Nodup
  edges : ((links host payload).map fun link => edgeId link.1 link.2).Nodup

def MindmapEdge.link (edge : MindmapEdge) : String × String := (edge.source, edge.target)

structure MindmapGraph.Grows (graph : MindmapGraph) (made : List (String × String)) : Prop where
  grown : Grown hubId MindmapEdge.source MindmapEdge.target (graph.nodes.map (·.id)) graph.edges
  made : graph.edges.map MindmapEdge.link = made
  named : ∀ edge ∈ graph.edges, edge.id = edgeId edge.source edge.target
  hub : ∃ node ∈ graph.nodes, node.kind = .hub ∧ node.id = hubId

section Growth

variable {host : PyHost} {graph : MindmapGraph} {made : List (String × String)}

theorem MindmapGraph.Grows.add (h : graph.Grows made) {node : MindmapNode} {edge : MindmapEdge}
    (hsource : edge.source ∈ graph.nodes.map (·.id)) (htarget : edge.target = node.id)
    (hid : edge.id = edgeId edge.source edge.target) :
    (graph.add node edge).Grows (made ++ [edge.link]) where
  grown := by
    have hgrown := h.grown.add hsource
    rw [htarget] at hgrown
    simpa [MindmapGraph.add] using hgrown
  made := by simp [MindmapGraph.add, h.made]
  named := by
    intro other hmem
    rcases List.mem_append.mp hmem with hold | hnew
    · exact h.named other hold
    · rw [List.mem_singleton.mp hnew]
      exact hid
  hub := by
    obtain ⟨node, hmem, hnode⟩ := h.hub
    exact ⟨node, List.mem_append_left _ hmem, hnode⟩

theorem MindmapGraph.Grows.addCards {id : String} (tone : MindmapTone)
    (cards : List (Value × Nat)) (h : graph.Grows made) (hid : id ∈ graph.nodes.map (·.id)) :
    (cards.foldl (addCard host id tone) graph).Grows
      (made ++ (cards.filterMap (cardId? host id)).map fun card => (id, card)) := by
  induction cards generalizing graph made with
  | nil => simpa using h
  | cons item rest ih =>
    rcases item with ⟨card, index⟩
    cases card with
    | obj card =>
      have hcard : (addCard host id tone graph (.obj card, index)).Grows
          (made ++ [(id, cardId host id card index)]) := h.add hid rfl rfl
      have hrest := ih hcard (by simp [addCard, MindmapGraph.add, hid])
      simpa [cardId?] using hrest
    | null | bool | int | float | str | arr => exact ih h hid

theorem MindmapGraph.Grows.addBranch (h : graph.Grows made) (item : Members × Nat) :
    (addBranch host graph item).Grows (made ++ branchLinks host item) := by
  rcases item with ⟨branch, index⟩
  unfold Mindmap.addBranch
  dsimp only
  rw [branchLinks, List.append_cons]
  refine MindmapGraph.Grows.addCards _ _ (h.add h.grown.root_mem rfl rfl) ?_
  simp [MindmapGraph.add]

theorem MindmapGraph.Grows.addBranches (branches : List (Members × Nat)) (h : graph.Grows made) :
    (branches.foldl (Mindmap.addBranch host) graph).Grows
      (made ++ branches.flatMap (branchLinks host)) := by
  induction branches generalizing graph made with
  | nil => simpa using h
  | cons branch rest ih =>
    rw [List.foldl_cons, List.flatMap_cons, ← List.append_assoc]
    exact ih (h.addBranch branch)

theorem hubNode_grows (host : PyHost) (payload : Members) (spaceName : String) :
    (⟨[hubNode host payload spaceName], []⟩ : MindmapGraph).Grows [] where
  grown := .root
  made := rfl
  named := nofun
  hub := ⟨_, List.mem_cons_self, rfl, rfl⟩

theorem MindmapGraph.Grows.nodes_eq (h : graph.Grows made) :
    graph.nodes.map (·.id) = hubId :: made.map Prod.snd := by
  rw [h.grown.nodes_eq, ← h.made, List.map_map]
  rfl

theorem length_without (hdiffer : (graph.nodes.map (·.id)).Nodup) {node : MindmapNode}
    (hnode : node ∈ graph.nodes) :
    (graph.without node.id).nodes.length + 1 = graph.nodes.length := by
  have hcount : (graph.nodes.map (·.id)).count node.id = 1 :=
    List.count_eq_one_of_mem hdiffer (List.mem_map_of_mem hnode)
  have hsplit := @List.length_eq_countP_add_countP _ (·.id == node.id) graph.nodes
  rw [List.count, List.countP_map] at hcount
  have hgone : graph.nodes.countP (fun other => other.id == node.id) = 1 := hcount
  have hkept : (graph.without node.id).nodes.length =
      graph.nodes.countP fun other => ¬(other.id == node.id) = true := by
    simp [MindmapGraph.without, List.countP_eq_length_filter]
  rw [hkept, hsplit, hgone, Nat.add_comm]

theorem MindmapGraph.Grows.tree_iff (h : graph.Grows made) :
    graph.Tree ↔ (hubId :: made.map Prod.snd).Nodup ∧
      (made.map fun link => edgeId link.1 link.2).Nodup := by
  have hedges : graph.edges.map (·.id) = made.map fun link => edgeId link.1 link.2 := by
    rw [← h.made, List.map_map]
    exact List.map_congr_left fun edge hmem => h.named edge hmem
  rw [← h.nodes_eq, ← hedges]
  refine ⟨fun htree => ⟨htree.nodes, htree.edges⟩, fun ⟨hdiffer, hedge⟩ => ?_⟩
  have hmem : ∀ node ∈ graph.nodes, node.id ∈ graph.nodes.map (·.id) :=
    fun node hnode => List.mem_map_of_mem hnode
  refine ⟨hdiffer, hedge, h.grown.ends_mem, fun node hnode hkind => ?_,
    fun node hnode => h.grown.reaches _ (hmem node hnode),
    fun node hnode => length_without hdiffer hnode⟩
  refine h.grown.incoming hdiffer _ (hmem node hnode) fun hid => hkind ?_
  obtain ⟨hub, hhub, hhubKind, hhubId⟩ := h.hub
  rw [← List.inj_on_of_nodup_map hdiffer hhub hnode (hhubId.trans hid.symm)]
  exact hhubKind

end Growth

theorem graph_tree_iff (host : PyHost) (payload : Members) (spaceName : String) :
    (graphFromLlmPayload host payload spaceName).Tree ↔ IdsDiffer host payload := by
  have hgrows : (((usableBranches payload).zipIdx.foldl (addBranch host)
      ⟨[hubNode host payload spaceName], []⟩) : MindmapGraph).Grows (links host payload) :=
    (hubNode_grows host payload spaceName).addBranches _
  have hdiffer : IdsDiffer host payload ↔ (hubId :: (links host payload).map Prod.snd).Nodup ∧
      ((links host payload).map fun link => edgeId link.1 link.2).Nodup :=
    ⟨fun h => ⟨h.nodes, h.edges⟩, fun h => ⟨h.1, h.2⟩⟩
  unfold graphFromLlmPayload
  dsimp only
  split
  · next hlone =>
    -- Without a branch there are no links, and the overview is the only one.
    have hnone : links host payload = [] := by
      have hlength := congrArg List.length hgrows.nodes_eq
      rw [List.length_map, hlone] at hlength
      simpa using hlength.symm
    rw [hnone] at hgrows
    rw [addOverview, (hgrows.add hgrows.grown.root_mem rfl rfl).tree_iff, hdiffer, hnone]
    simp [hubId, MindmapEdge.link]
  · rw [hgrows.tree_iff, hdiffer]

def sampleBranch (id card : String) : Value :=
  .obj (.cons "id" (.str id)
    (.cons "cards" (.arr (.cons (.obj (.cons "id" (.str card) .nil)) .nil)) .nil))

def samplePayload (first second : Value) : Members :=
  .cons "branches" (.arr (.cons first (.cons second .nil))) .nil

def asciiHost : PyHost := ⟨Char.isAlphanum, fun _ => "None", fun _ => true⟩

/-- The cards of two branches have one id, and removing one removes both. The links of the second
payload read the same. -/
theorem cards_share_id :
    ¬ (graphFromLlmPayload asciiHost
        (samplePayload (sampleBranch "tasks" "1") (sampleBranch "notes" "1")) "Home").Tree ∧
      ((graphFromLlmPayload asciiHost (samplePayload (sampleBranch "tasks" "1")
        (sampleBranch "notes" "1")) "Home").without "1").nodes.map (·.id) =
          ["hub", "tasks", "notes"] ∧
      ¬ (graphFromLlmPayload asciiHost
        (samplePayload (sampleBranch "a" "b-c") (sampleBranch "a-b" "c")) "Home").Tree := by
  refine ⟨fun h => absurd h.nodes ?_, by decide +kernel, fun h => absurd h.edges ?_⟩
  · decide +kernel
  · decide +kernel

end AiBuddy.Mindmap
