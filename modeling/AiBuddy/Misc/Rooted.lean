import Mathlib.Data.List.Nodup
import Mathlib.Logic.Relation

/-!
# Graphs that grow from a root

A graph grows from a root where each node is added together with one edge, which comes from a node
that is already there. If all its nodes differ, it is a tree. Nothing here depends on the program
that uses it.
-/

namespace Rooted

universe u v

variable {α : Type u} {E : Type v} (root : α) (source target : E → α)

inductive Grown : List α → List E → Prop
  | root : Grown [root] []
  | add {nodes : List α} {edges : List E} {edge : E} :
      Grown nodes edges → source edge ∈ nodes →
      Grown (nodes ++ [target edge]) (edges ++ [edge])

def Parent (edges : List E) (child parent : α) : Prop :=
  ∃ edge ∈ edges, target edge = child ∧ source edge = parent

variable {root source target} {nodes : List α} {edges : List E}

theorem Parent.append {child parent : α} (h : Parent source target edges child parent)
    (more : List E) : Parent source target (edges ++ more) child parent := by
  obtain ⟨edge, hmem, hends⟩ := h
  exact ⟨edge, List.mem_append_left more hmem, hends⟩

namespace Grown

section

variable (h : Grown root source target nodes edges)

include h

theorem nodes_eq : nodes = root :: edges.map target := by
  induction h with
  | root => rfl
  | add _ _ ih => rw [ih, List.map_append, List.map_singleton, List.cons_append]

theorem root_mem : root ∈ nodes := by
  rw [h.nodes_eq]
  exact List.mem_cons_self

theorem ends_mem : ∀ edge ∈ edges, source edge ∈ nodes ∧ target edge ∈ nodes := by
  induction h with
  | root => nofun
  | add _ hsource ih =>
    intro edge hedge
    rcases List.mem_append.mp hedge with hold | hnew
    · exact ⟨List.mem_append_left _ (ih edge hold).1, List.mem_append_left _ (ih edge hold).2⟩
    · obtain rfl := List.mem_singleton.mp hnew
      simp [hsource]

theorem reaches : ∀ node ∈ nodes, Relation.ReflTransGen (Parent source target edges) node root := by
  induction h with
  | root =>
    intro node hnode
    rw [List.mem_singleton.mp hnode]
  | @add nodes edges edge _ hsource ih =>
    have hback : ∀ node ∈ nodes,
        Relation.ReflTransGen (Parent source target (edges ++ [edge])) node root :=
      fun node hnode => (ih node hnode).lift id fun _ _ hparent => hparent.append [edge]
    intro node hnode
    rcases List.mem_append.mp hnode with hold | hnew
    · exact hback node hold
    · obtain rfl := List.mem_singleton.mp hnew
      exact .head ⟨edge, by simp, rfl, rfl⟩ (hback _ hsource)

theorem incoming [DecidableEq α] (hnodup : nodes.Nodup) :
    ∀ node ∈ nodes, node ≠ root → edges.countP (fun edge => target edge = node) = 1 := by
  rw [h.nodes_eq] at hnodup ⊢
  intro node hnode hroot
  have hmem : node ∈ edges.map target := (List.mem_cons.mp hnode).resolve_left hroot
  have hcount := List.count_eq_one_of_mem hnodup.of_cons hmem
  rw [← hcount, List.count, List.countP_map]
  congr 1

end

end Grown

end Rooted
