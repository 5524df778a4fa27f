import Revng.ADT.GenericGraph.GraphTraits
import Revng.ADT.GenericGraph.Proofs.Refinement

set_option autoImplicit false

/-! # Walking a graph through `GraphTraits`

On a mirrored arena of `MutableEdgeNode`s, `GraphTraits<T *>` and `GraphTraits<Inverse<T *>>` list,
each neighbour once, the edges out of and into a node of the graph the arena stands for, and the
label read through each `EdgeView` is the label of that edge (`Mirror.graphTraits_edges`). A walk
through the inverse traits therefore reaches exactly the nodes from which its start is reached
(`Mirror.inverseReaches_iff`), which post-dominator trees rely on. From every arena a program
reaches, a walk from a live node visits only live nodes, and never one that `removeNode` destroyed
(`Reachable.walk_live`).

`BidirectionalNode::addPredecessor` gives the predecessor side of an edge one record too many
(`BiArena.mirrored_run_iff`), but never a neighbour that the successor side lacks: after every run
the inverse traits list the reverse neighbours, and inverse walks are reverse walks
(`BiArena.inverseReaches_run_iff`). -/

namespace Revng

namespace Arena

variable {L : Type} {s : Arena L} {h : List NodeEvent}

theorem mem_map_neighbor {d : Dir} {n m : NodeId} :
    m ∈ (s.edges d n).map HalfEdge.neighbor ↔ s.has d n m = true := by
  rw [has_iff, List.mem_map]

theorem mem_children {a b : NodeId} : b ∈ s.children a ↔ s.hasSuccessor a b = true :=
  mem_map_neighbor

/-- The inverse traits of `b` list `a` exactly when the traits of `a` list `b`. -/
theorem Mirror.mem_inverseChildren (hs : s.Mirror) {a b : NodeId} :
    a ∈ s.inverseChildren b ↔ b ∈ s.children a :=
  mem_map_neighbor.trans (hs.has_flip.trans mem_map_neighbor.symm)

/-- On a mirrored arena, the traits of `a` list each successor of `a` in the graph once, the inverse
    traits of `b` each predecessor of `b` once, and the label read through the `EdgeView` of a child
    edge, forward or inverse, is the label of the edge in the graph. -/
theorem Mirror.graphTraits_edges (hs : s.Mirror) (a b : NodeId) :
    (s.children a).Nodup ∧ (s.inverseChildren b).Nodup ∧
    (b ∈ s.children a ↔ (s.toGraph.edge a b).isSome) ∧
    (a ∈ s.inverseChildren b ↔ (s.toGraph.edge a b).isSome) ∧
    (∀ e ∈ s.childEdges a, s.viewLabel e = s.toGraph.edge a (edgeDest e)) ∧
    (∀ e ∈ s.inverseChildEdges b, s.viewLabel e = s.toGraph.edge (edgeDest e) b) := by
  have hab : b ∈ s.children a ↔ (s.toGraph.edge a b).isSome := by
    rw [mem_children, toGraph, hs.edgeLabel_isSome]
  refine ⟨hs.nodup .succ a, hs.nodup .pred b, hab, hs.mem_inverseChildren.trans hab, ?_, ?_⟩
  · rintro ⟨b', l⟩ he
    exact (edgeLabel_of_mem hs he).symm
  · rintro ⟨a', l⟩ he
    exact (edgeLabel_of_mem hs ((hs.mirror a' b l).2 he)).symm

theorem graphTraits_edges_chainABC :
    chainABC.Mirror ∧ ((chainABC.children 0).Nodup ∧ (chainABC.inverseChildren 1).Nodup ∧
      (1 ∈ chainABC.children 0 ↔ (chainABC.toGraph.edge 0 1).isSome) ∧
      (0 ∈ chainABC.inverseChildren 1 ↔ (chainABC.toGraph.edge 0 1).isSome) ∧
      (∀ e ∈ chainABC.childEdges 0, chainABC.viewLabel e = chainABC.toGraph.edge 0 (edgeDest e)) ∧
      (∀ e ∈ chainABC.inverseChildEdges 1,
        chainABC.viewLabel e = chainABC.toGraph.edge (edgeDest e) 1)) :=
  ⟨Mirror.chainABC, Mirror.chainABC.graphTraits_edges 0 1⟩

/-- On a mirrored arena, a walk through `GraphTraits<Inverse<T *>>` from `n` reaches `m` exactly
    when a walk through `GraphTraits<T *>` from `m` reaches `n`. -/
theorem Mirror.inverseReaches_iff (hs : s.Mirror) {n m : NodeId} :
    Reaches s.inverseChildren n m ↔ Reaches s.children m n :=
  reaches_inverse_iff fun _ _ => hs.mem_inverseChildren

theorem inverseReaches_iff_chainABC :
    chainABC.Mirror ∧ (Reaches chainABC.inverseChildren 2 0 ↔ Reaches chainABC.children 0 2) :=
  ⟨Mirror.chainABC, Mirror.chainABC.inverseReaches_iff⟩

/-- From every arena a run without copies reaches, a walk from a live node through either traits
    visits only live nodes, and none that `removeNode` destroyed. -/
theorem Reachable.walk_live (hr : Reachable false s h) {n m : NodeId} (hn : s.live n = true)
    (hm : Reaches s.children n m ∨ Reaches s.inverseChildren n m) :
    s.live m = true ∧ NodeEvent.removed m ∉ h := by
  obtain ⟨hs, hns⟩ := hr.inv
  have hchild : ∀ d x y, y ∈ (s.edges d x).map HalfEdge.neighbor → s.live y = true := by
    intro d x y hy
    obtain ⟨e, he, rfl⟩ := List.mem_map.1 hy
    exact (hs.live d x e he).2
  have hlive : s.live m = true := by
    rcases hm with hm | hm
    · exact Reaches.of_children (hchild .succ) hn hm
    · exact Reaches.of_children (hchild .pred) hn hm
  exact ⟨hlive, fun hrem => by simp [hns.dead_of_removed m hrem] at hlive⟩

/-- `A` reaches `C` through `B` in the chain. -/
theorem walk_live_chainABC :
    Reachable false chainABC [.added 0, .added 1, .added 2] ∧ chainABC.live 0 = true ∧
      (Reaches chainABC.children 0 2 ∨ Reaches chainABC.inverseChildren 0 2) ∧
      (chainABC.live 2 = true ∧ NodeEvent.removed 2 ∉ [.added 0, .added 1, .added 2]) :=
  have hwalk : Reaches chainABC.children 0 2 :=
    .tail (.single (by decide : 1 ∈ chainABC.children 0)) (by decide : 2 ∈ chainABC.children 1)
  have hlive : chainABC.live 0 = true := rfl
  ⟨Reachable.chainABC, hlive, .inl hwalk, Reachable.walk_live Reachable.chainABC hlive (.inl hwalk)⟩

end Arena

namespace BiArena

variable {L : Type}

theorem mem_children_iff (s : BiArena L) {a b : NodeId} :
    b ∈ s.children a ↔ s.succLabels a b ≠ [] := by
  simp [children, succLabels, List.filter_eq_nil_iff]

theorem mem_inverseChildren_iff (s : BiArena L) {a b : NodeId} :
    a ∈ s.inverseChildren b ↔ s.predLabels b a ≠ [] := by
  simp [inverseChildren, predLabels, List.filter_eq_nil_iff]

/-- Both sides of each ordered pair list the pair's neighbour, or neither does. -/
def SameNeighbors (s : BiArena L) : Prop := ∀ a b, s.succLabels a b = [] ↔ s.predLabels b a = []

/-- Each call adds a record on both sides of the pair it names. -/
theorem SameNeighbors.step {s : BiArena L} (hs : s.SameNeighbors) (op : Op L) :
    (s.step op).SameNeighbors := by
  intro a b
  cases op with
  | addSuccessor n m el =>
    simp only [BiArena.step, succLabels_addSuccessor, predLabels_addSuccessor, List.append_eq_nil,
      hs a b]
  | addPredecessor n m el =>
    obtain ⟨hsl, hpl⟩ := labels_addPredecessor s n m el a b
    simp only [BiArena.step, hsl, hpl, List.append_eq_nil, hs a b]
    split_ifs <;> simp

theorem SameNeighbors.run : ∀ (ops : List (Op L)) {s : BiArena L}, s.SameNeighbors →
    (s.run ops).SameNeighbors
  | [], _, hs => hs
  | op :: ops, _, hs => SameNeighbors.run ops (hs.step op)

/-- From nodes with empty lists, after any run of `addSuccessor` and `addPredecessor`, the inverse
    traits of `b` list `a` exactly when the traits of `a` list `b`, and a walk through the inverse
    traits from `n` reaches `m` exactly when a walk through the traits from `m` reaches `n`. -/
theorem inverseReaches_run_iff (ops : List (Op L)) :
    (∀ a b, a ∈ (empty.run ops).inverseChildren b ↔ b ∈ (empty.run ops).children a) ∧
    ∀ n m, Reaches (empty.run ops).inverseChildren n m ↔ Reaches (empty.run ops).children m n := by
  have hsame : (empty.run ops).SameNeighbors :=
    SameNeighbors.run ops fun _ _ => by simp [empty, succLabels, predLabels]
  have hmem : ∀ a b, a ∈ (empty.run ops).inverseChildren b ↔ b ∈ (empty.run ops).children a :=
    fun a b => by rw [mem_inverseChildren_iff, mem_children_iff]; exact not_congr (hsame a b).symm
  exact ⟨hmem, fun _ _ => reaches_inverse_iff fun x y => hmem y x⟩

end BiArena

end Revng
