import Revng.Support.Assert
import Revng.ADT.SmallVector
import Mathlib.Logic.Function.Basic

set_option autoImplicit false

/-! # `MutableEdgeNode`: the arena model

`MutableEdgeNode` (`GenericGraph.h`) is the double-linked node whose edge labels live on the heap.
Every edge has two halves: an `OwningEdge` in the source node's `Successors`, holding the
`unique_ptr` to the label, and a `NonOwningEdge` in the target node's `Predecessors`, holding a raw
pointer to the same label.

The pointer graph is modelled as an arena: a node is a `NodeId`, a label allocation a `LabelRef`,
and an `Arena` holds the two lists of every node together with the one `GenericGraph` that owns
some of the nodes (`nodes`, `entryNode`). Fresh nodes and labels come from counters (`nextNode`,
`labels.length`), so an address is never handed out twice.

A call of the code either returns or stops on a `Fault`: a failed `revng_assert`, or a dereference of
an `end()` iterator, which is undefined behaviour in the source. Either way the arena it leaves is
returned with it, so that "an aborting call changes nothing" can be stated. The loops of `disconnect`
are not bounded by the code: they take a `fuel` argument, and `none` means the loop was still running
when the fuel ran out. -/

namespace Revng

/-- A node's address. -/
abbrev NodeId := Nat

/-- The address of a heap-allocated edge label. -/
abbrev LabelRef := Nat

/-- One half of an edge: the `OwningEdge` in a successor list or the `NonOwningEdge` in a
    predecessor list. Both name the neighbour and the label allocation; which half owns the
    allocation is told by the list it sits in. -/
structure HalfEdge where
  neighbor : NodeId
  label : LabelRef
deriving DecidableEq, Repr

/-- The message of the duplicate-edge assertion of `addSuccessor` and `addPredecessor`. -/
def onlyOneEdge : String := "Only one edge is allowed between two nodes."

/-- The message of the mirror assertion of `removeSuccessorImpl` and `removePredecessorImpl`. -/
def halfEdgeMissing : String := "Half of an edge is missing, graph layout is broken."

/-- The two edge lists of a node. -/
inductive Dir where
  | succ
  | pred
deriving DecidableEq, Repr

/-- The list that holds the other half of an edge. -/
def Dir.flip : Dir → Dir
  | .succ => .pred
  | .pred => .succ

@[simp] theorem Dir.flip_succ : Dir.succ.flip = .pred := rfl
@[simp] theorem Dir.flip_pred : Dir.pred.flip = .succ := rfl
@[simp] theorem Dir.flip_flip (d : Dir) : d.flip.flip = d := by cases d <;> rfl
@[simp] theorem Dir.flip_ne (d : Dir) : d.flip ≠ d := by cases d <;> decide
@[simp] theorem Dir.ne_flip (d : Dir) : d ≠ d.flip := by cases d <;> decide

/-- What `std::make_unique<NodeT>(Args...)` builds a node from. The node's own data is not modelled;
    from a `const` node the defaulted copy constructor copies its edge lists and its parent. -/
inductive NodeInit where
  | fresh
  | copy (src : NodeId)
deriving DecidableEq, Repr

/-- The nodes of a program run and the `GenericGraph` that owns some of them. -/
structure Arena (L : Type) where
  /-- `edges .succ n` is node `n`'s `Successors`, `edges .pred n` its `Predecessors`. -/
  edges : Dir → NodeId → List HalfEdge
  /-- `Parent::TheParent` is the graph (`false`: `nullptr`). -/
  parent : NodeId → Bool
  /-- The node is allocated and not yet destroyed. -/
  live : NodeId → Bool
  /-- The address the next node allocation returns. -/
  nextNode : NodeId
  /-- The label heap: allocation `l` holds `labels[l]`. -/
  labels : List L
  /-- `GenericGraph::Nodes`, in insertion order. -/
  nodes : List NodeId
  /-- `EntryNode::EntryNode` (`none`: `nullptr`). -/
  entryNode : Option NodeId

namespace Arena

variable {L : Type}

/-- No node allocated, the graph empty. -/
def empty : Arena L where
  edges _ _ := []
  parent _ := false
  live _ := false
  nextNode := 0
  labels := []
  nodes := []
  entryNode := none

/-- `MutableEdgeNode::Successors` of node `n`. -/
def successors (s : Arena L) (n : NodeId) : List HalfEdge := s.edges .succ n

/-- `MutableEdgeNode::Predecessors` of node `n`. -/
def predecessors (s : Arena L) (n : NodeId) : List HalfEdge := s.edges .pred n

@[simp] theorem successors_eq (s : Arena L) (n : NodeId) : s.successors n = s.edges .succ n := rfl
@[simp] theorem predecessors_eq (s : Arena L) (n : NodeId) : s.predecessors n = s.edges .pred n :=
  rfl

/-- Replace node `n`'s `d`-list. -/
def setEdges (s : Arena L) (d : Dir) (n : NodeId) (l : List HalfEdge) : Arena L :=
  { s with edges := Function.update s.edges d (Function.update (s.edges d) n l) }

@[simp] theorem edges_setEdges (s : Arena L) (d d' : Dir) (n m : NodeId) (l : List HalfEdge) :
    (s.setEdges d n l).edges d' m = if d' = d ∧ m = n then l else s.edges d' m := by
  by_cases hd : d' = d
  · subst hd; by_cases hm : m = n <;> simp [setEdges, hm]
  · simp [setEdges, hd]

@[simp] theorem parent_setEdges (s : Arena L) (d : Dir) (n : NodeId) (l : List HalfEdge) :
    (s.setEdges d n l).parent = s.parent := rfl
@[simp] theorem live_setEdges (s : Arena L) (d : Dir) (n : NodeId) (l : List HalfEdge) :
    (s.setEdges d n l).live = s.live := rfl
@[simp] theorem nextNode_setEdges (s : Arena L) (d : Dir) (n : NodeId) (l : List HalfEdge) :
    (s.setEdges d n l).nextNode = s.nextNode := rfl
@[simp] theorem labels_setEdges (s : Arena L) (d : Dir) (n : NodeId) (l : List HalfEdge) :
    (s.setEdges d n l).labels = s.labels := rfl
@[simp] theorem nodes_setEdges (s : Arena L) (d : Dir) (n : NodeId) (l : List HalfEdge) :
    (s.setEdges d n l).nodes = s.nodes := rfl
@[simp] theorem entryNode_setEdges (s : Arena L) (d : Dir) (n : NodeId) (l : List HalfEdge) :
    (s.setEdges d n l).entryNode = s.entryNode := rfl

/-! ## Lookup -/

/-- `findSuccessorImpl` (`d = .succ`) and `findPredecessorImpl` (`d = .pred`) on node `n`: the
    position of the first half naming `m`, `end()` when none does. -/
def findImpl (s : Arena L) (d : Dir) (n m : NodeId) : Nat :=
  (s.edges d n).findIdx (·.neighbor == m)

/-- `findSuccessorImpl(m)` on node `n`. -/
def findSuccessorImpl (s : Arena L) (n m : NodeId) : Nat := s.findImpl .succ n m

/-- `findPredecessorImpl(m)` on node `n`. -/
def findPredecessorImpl (s : Arena L) (n m : NodeId) : Nat := s.findImpl .pred n m

/-- `hasSuccessor` and `hasPredecessor`: `find...Impl(m) != end()`. -/
def has (s : Arena L) (d : Dir) (n m : NodeId) : Bool :=
  s.findImpl d n m != (s.edges d n).length

/-- `hasSuccessor(m)` on node `n`. -/
def hasSuccessor (s : Arena L) (n m : NodeId) : Bool := s.has .succ n m

/-- `hasPredecessor(m)` on node `n`. -/
def hasPredecessor (s : Arena L) (n m : NodeId) : Bool := s.has .pred n m

/-! ## Adding an edge -/

/-- `constructEdge(From, To, EL)`: allocate the label and build the owning half `(To, l)` and the
    view `(From, l)` of the same allocation `l`. -/
def constructEdge (s : Arena L) (src dst : NodeId) (el : L) : Arena L × HalfEdge × HalfEdge :=
  let l := s.labels.length
  ({ s with labels := s.labels ++ [el] }, ⟨dst, l⟩, ⟨src, l⟩)

/-- What `addSuccessor` and `addPredecessor` do once their assertion holds: construct the edge,
    `emplace_back` the owner on `src`'s successors and the view on `dst`'s predecessors. The result
    is the owner, of which both return an `EdgeView`. -/
def emplaceEdge (s : Arena L) (src dst : NodeId) (el : L) : HalfEdge × Arena L :=
  let (s, owner, view) := s.constructEdge src dst el
  let s := s.setEdges .succ src (s.edges .succ src ++ [owner])
  (owner, s.setEdges .pred dst (s.edges .pred dst ++ [view]))

/-- `addSuccessor(NewSuccessor, EL)` on node `n`. -/
def addSuccessor (s : Arena L) (n m : NodeId) (el : L) : Except Fault HalfEdge × Arena L :=
  if s.hasSuccessor n m then (.error (.assertion onlyOneEdge), s)
  else
    let (output, s) := s.emplaceEdge n m el
    (.ok output, s)

/-- `addPredecessor(NewPredecessor, EL)` on node `n`. -/
def addPredecessor (s : Arena L) (n m : NodeId) (el : L) : Except Fault HalfEdge × Arena L :=
  if s.hasPredecessor n m then (.error (.assertion onlyOneEdge), s)
  else
    let (output, s) := s.emplaceEdge m n el
    (.ok output, s)

/-- `EdgeView(E).Label = V`: the view of a half, owner or view alike, refers to the label allocation
    the half names, and the write goes there. -/
def writeLabel (s : Arena L) (e : HalfEdge) (v : L) : Arena L :=
  { s with labels := s.labels.set e.label v }

/-! ## Removing an edge -/

/-- `removeSuccessorImpl` (`d = .succ`) and `removePredecessorImpl` (`d = .pred`) at position `i`
    of node `n`'s `d`-list: swap-and-pop the half there and, found by `find...Impl(*this)` on the
    neighbour's other list, its mirror. The result is the position to continue from. -/
def removeImpl (s : Arena L) (d : Dir) (n : NodeId) (i : Nat) : Except Fault Nat × Arena L :=
  if s.edges d n = [] then (.ok 0, s)
  else
    match (s.edges d n)[i]? with
    | none => (.error .outOfRange, s)
    | some e =>
      if s.edges d.flip e.neighbor = [] then (.ok i, s)
      else
        let j := s.findImpl d.flip e.neighbor n
        if j = (s.edges d.flip e.neighbor).length then (.error (.assertion halfEdgeMissing), s)
        else
          let s := s.setEdges d.flip e.neighbor (swapPop (s.edges d.flip e.neighbor) j)
          (.ok i, s.setEdges d n (swapPop (s.edges d n) i))

/-- `removeSuccessorImpl` at position `i` of node `n`; every iterator overload of
    `removeSuccessor` is this call. -/
def removeSuccessorImpl (s : Arena L) (n : NodeId) (i : Nat) : Except Fault Nat × Arena L :=
  s.removeImpl .succ n i

/-- `removePredecessorImpl` at position `i` of node `n`; every iterator overload of
    `removePredecessor` is this call. -/
def removePredecessorImpl (s : Arena L) (n : NodeId) (i : Nat) : Except Fault Nat × Arena L :=
  s.removeImpl .pred n i

/-- `removeSuccessor(DerivedType const &S)` on node `n`. -/
def removeSuccessor (s : Arena L) (n m : NodeId) : Except Fault Nat × Arena L :=
  s.removeSuccessorImpl n (s.findSuccessorImpl n m)

/-- `removePredecessor(DerivedType const &P)` on node `n`. -/
def removePredecessor (s : Arena L) (n m : NodeId) : Except Fault Nat × Arena L :=
  s.removePredecessorImpl n (s.findPredecessorImpl n m)

/-! ## `disconnect` -/

/-- `for (auto It = begin(); It != end();) It = remove...Impl(It);` over node `n`'s `d`-list from
    position `it`, for at most `fuel` rounds. -/
def drain (d : Dir) (n : NodeId) : Nat → Arena L → Nat → Option (Except Fault Unit × Arena L)
  | 0, _, _ => none
  | fuel + 1, s, it =>
    if it = (s.edges d n).length then some (.ok (), s)
    else
      match s.removeImpl d n it with
      | (.ok it, s) => drain d n fuel s it
      | (.error f, s) => some (.error f, s)

/-- `disconnect()` on node `n`: the successor loop, then the predecessor loop. -/
def disconnect (s : Arena L) (n : NodeId) (fuel : Nat) : Option (Except Fault Unit × Arena L) :=
  match drain .succ n fuel s 0 with
  | some (.ok (), s) => drain .pred n fuel s 0
  | r => r

end Arena

end Revng
