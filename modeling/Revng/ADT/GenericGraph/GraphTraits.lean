import Revng.ADT.GenericGraph.BidirectionalNode
import Mathlib.Logic.Relation

set_option autoImplicit false

/-! # `GraphTraits` of the node types

LLVM's graph algorithms (depth-first and post-order iteration, dominator and post-dominator trees)
see a graph only through `llvm::GraphTraits`: the children of a node, the edges to them and the
destination of each edge. For a `ForwardNode`, a `BidirectionalNode` or a `MutableEdgeNode`,
`GraphTraits<T *>` enumerates the successors; `GraphTraits<llvm::Inverse<T *>>`, defined for
`BidirectionalNode` and `MutableEdgeNode`, enumerates the predecessors. `GraphTraits<GenericGraph *>`
adds `nodes_begin .. nodes_end`, `size` and `getEntryNode`, which are `Nodes`, its length and the
entry node of the arena as they stand.

`Reaches next n m` says that an algorithm following the children `next` from `n` can visit `m`. -/

namespace Revng

/-- The nodes a walk from `n` along the children `next` reaches: what `depth_first(n)` visits. -/
def Reaches (next : NodeId → List NodeId) : NodeId → NodeId → Prop :=
  Relation.ReflTransGen fun x y => y ∈ next x

/-- A property that holds of every child holds of every node a walk reaches past its start. -/
theorem Reaches.of_children {next : NodeId → List NodeId} {P : NodeId → Prop}
    (hP : ∀ x y, y ∈ next x → P y) {n m : NodeId} (hn : P n) (hm : Reaches next n m) : P m := by
  induction hm with
  | refl => exact hn
  | tail _ hxy _ => exact hP _ _ hxy

/-- When `y` is an inverse child of `x` exactly when `x` is a child of `y`, a walk along the inverse
    children reaches exactly the nodes from which its start is reached. -/
theorem reaches_inverse_iff {next inverse : NodeId → List NodeId}
    (h : ∀ x y, y ∈ inverse x ↔ x ∈ next y) {n m : NodeId} :
    Reaches inverse n m ↔ Reaches next m n := by
  have hswap : (fun x y => y ∈ inverse x) = Function.swap fun x y => y ∈ next x :=
    funext₂ fun x y => propext (h x y)
  rw [Reaches, hswap, Relation.reflTransGen_swap]
  rfl

namespace Arena

variable {L : Type}

/-- `GraphTraits<T *>::child_edge_begin(N) .. child_edge_end(N)` for a `MutableEdgeNode`:
    `N->successor_edges()`, the `EdgeView` of each owner, which refers to the owner's neighbour and
    to its label allocation. -/
def childEdges (s : Arena L) (n : NodeId) : List HalfEdge := s.successors n

/-- `GraphTraits<Inverse<T *>>::child_edge_begin(N) .. child_edge_end(N)`:
    `N->predecessor_edges()`, the `EdgeView` of each view. -/
def inverseChildEdges (s : Arena L) (n : NodeId) : List HalfEdge := s.predecessors n

/-- `edge_dest(Edge)`: `&Edge.Neighbor`. -/
def edgeDest (e : HalfEdge) : NodeId := e.neighbor

/-- `Edge.Label` read through an `EdgeView`: the value in the allocation the view refers to. -/
def viewLabel (s : Arena L) (e : HalfEdge) : Option L := s.labels[e.label]?

/-- `GraphTraits<T *>::child_begin(N) .. child_end(N)`: `N->successors()`, the neighbour of each
    owner. -/
def children (s : Arena L) (n : NodeId) : List NodeId := (s.successors n).map HalfEdge.neighbor

/-- `GraphTraits<Inverse<T *>>::child_begin(N) .. child_end(N)`: `N->predecessors()`, the neighbour
    of each view. -/
def inverseChildren (s : Arena L) (n : NodeId) : List NodeId :=
  (s.predecessors n).map HalfEdge.neighbor

end Arena

namespace BiArena

variable {L : Type}

/-- `GraphTraits<T *>::child_begin(N) .. child_end(N)` for a `BidirectionalNode`: `N->successors()`,
    the neighbour of each successor record. -/
def children (s : BiArena L) (n : NodeId) : List NodeId := (s.successors n).map Edge.neighbor

/-- `GraphTraits<Inverse<T *>>::child_begin(N) .. child_end(N)`: `N->predecessors()`, the neighbour
    of each predecessor record. -/
def inverseChildren (s : BiArena L) (n : NodeId) : List NodeId :=
  (s.predecessors n).map Edge.neighbor

end BiArena

end Revng
