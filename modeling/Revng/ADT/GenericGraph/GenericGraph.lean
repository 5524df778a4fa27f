import Revng.ADT.GenericGraph.MutableEdgeNode

set_option autoImplicit false

/-! # `GenericGraph` over `MutableEdgeNode`

The container owns its nodes through `Nodes`, a vector of `unique_ptr`s in insertion order, and may
designate one of them as the entry node. `addNode` appends and sets the node's parent; `removeNode`
first `disconnect`s the node (the node type is a `MutableEdgeNode`) and then erases it, which destroys
it. Neither checks its argument: `removeNode` of a node that is not in the graph works on the `end()`
position of `Nodes`.

`Op` lists every call of the public API on an arena, and `Arena.step` runs one. A run of the program
is a sequence of steps: `Arena.Reachable` collects the arenas a sequence of calls within what
callers promise reaches, and `Arena.inv_step` says what one call keeps. -/

namespace Revng

namespace Arena

variable {L : Type}

/-- `findNode(NodePtr)`: the position of `m` in `Nodes`, `end()` when absent. -/
def findNode (s : Arena L) (m : NodeId) : Nat := s.nodes.findIdx (· == m)

/-- `hasNode(NodePtr)`: `findNode(NodePtr) != end()`. -/
def hasNode (s : Arena L) (m : NodeId) : Bool := s.findNode m != s.nodes.length

/-- `std::make_unique<NodeT>(...)`: allocate a node, outside of any graph. -/
def makeNode (s : Arena L) (init : NodeInit) : NodeId × Arena L :=
  let n := s.nextNode
  let (e, p) : (Dir → List HalfEdge) × Bool :=
    match init with
    | .fresh => (fun _ => [], false)
    | .copy src => (fun d => s.edges d src, s.parent src)
  (n, { s with
    edges := fun d => Function.update (s.edges d) n (e d)
    parent := Function.update s.parent n p
    live := Function.update s.live n true
    nextNode := n + 1 })

@[simp] theorem makeNode_fst (s : Arena L) (init : NodeInit) : (s.makeNode init).1 = s.nextNode :=
  rfl
@[simp] theorem nextNode_makeNode (s : Arena L) (init : NodeInit) :
    (s.makeNode init).2.nextNode = s.nextNode + 1 := rfl
@[simp] theorem live_makeNode (s : Arena L) (init : NodeInit) :
    (s.makeNode init).2.live = Function.update s.live s.nextNode true := rfl
@[simp] theorem labels_makeNode (s : Arena L) (init : NodeInit) :
    (s.makeNode init).2.labels = s.labels := rfl
@[simp] theorem nodes_makeNode (s : Arena L) (init : NodeInit) :
    (s.makeNode init).2.nodes = s.nodes := rfl
@[simp] theorem entryNode_makeNode (s : Arena L) (init : NodeInit) :
    (s.makeNode init).2.entryNode = s.entryNode := rfl
@[simp] theorem edges_makeNode_fresh (s : Arena L) (d : Dir) (x : NodeId) :
    (s.makeNode .fresh).2.edges d x = if x = s.nextNode then [] else s.edges d x := by
  simp [makeNode, Function.update_apply]
@[simp] theorem edges_makeNode_copy (s : Arena L) (src : NodeId) (d : Dir) (x : NodeId) :
    (s.makeNode (.copy src)).2.edges d x = if x = s.nextNode then s.edges d src else s.edges d x :=
  by simp [makeNode, Function.update_apply]
theorem parent_makeNode_of_ne (s : Arena L) (init : NodeInit) {x : NodeId} (hx : x ≠ s.nextNode) :
    (s.makeNode init).2.parent x = s.parent x := by
  cases init <;> simp [makeNode, Function.update_noteq hx]

/-- `addNode(std::unique_ptr<NodeT> &&Ptr)`: take ownership of node `n` and set its parent. -/
def addNode (s : Arena L) (n : NodeId) : NodeId × Arena L :=
  (n, { s with nodes := s.nodes ++ [n], parent := Function.update s.parent n true })

@[simp] theorem addNode_fst (s : Arena L) (n : NodeId) : (s.addNode n).1 = n := rfl
@[simp] theorem nodes_addNode (s : Arena L) (n : NodeId) : (s.addNode n).2.nodes = s.nodes ++ [n] :=
  rfl
@[simp] theorem parent_addNode (s : Arena L) (n : NodeId) :
    (s.addNode n).2.parent = Function.update s.parent n true := rfl
@[simp] theorem edges_addNode (s : Arena L) (n : NodeId) : (s.addNode n).2.edges = s.edges := rfl
@[simp] theorem live_addNode (s : Arena L) (n : NodeId) : (s.addNode n).2.live = s.live := rfl
@[simp] theorem nextNode_addNode (s : Arena L) (n : NodeId) :
    (s.addNode n).2.nextNode = s.nextNode := rfl
@[simp] theorem labels_addNode (s : Arena L) (n : NodeId) : (s.addNode n).2.labels = s.labels := rfl
@[simp] theorem entryNode_addNode (s : Arena L) (n : NodeId) :
    (s.addNode n).2.entryNode = s.entryNode := rfl

/-- `addNode(Args &&...A)`: `std::make_unique<NodeT>(A...)`, then as `addNode(Ptr)`. -/
def addNodeArgs (s : Arena L) (init : NodeInit) : NodeId × Arena L :=
  let (n, s) := s.makeNode init
  s.addNode n

/-- `Nodes.erase(It)` at position `k`, which holds node `n`: the `unique_ptr` is destroyed, and `n`
    with it. -/
def eraseNode (s : Arena L) (k : Nat) (n : NodeId) : Arena L :=
  { s with nodes := s.nodes.eraseIdx k, live := Function.update s.live n false }

@[simp] theorem nodes_eraseNode (s : Arena L) (k : Nat) (n : NodeId) :
    (s.eraseNode k n).nodes = s.nodes.eraseIdx k := rfl
@[simp] theorem live_eraseNode (s : Arena L) (k : Nat) (n : NodeId) :
    (s.eraseNode k n).live = Function.update s.live n false := rfl
@[simp] theorem edges_eraseNode (s : Arena L) (k : Nat) (n : NodeId) :
    (s.eraseNode k n).edges = s.edges := rfl
@[simp] theorem labels_eraseNode (s : Arena L) (k : Nat) (n : NodeId) :
    (s.eraseNode k n).labels = s.labels := rfl
@[simp] theorem parent_eraseNode (s : Arena L) (k : Nat) (n : NodeId) :
    (s.eraseNode k n).parent = s.parent := rfl
@[simp] theorem nextNode_eraseNode (s : Arena L) (k : Nat) (n : NodeId) :
    (s.eraseNode k n).nextNode = s.nextNode := rfl
@[simp] theorem entryNode_eraseNode (s : Arena L) (k : Nat) (n : NodeId) :
    (s.eraseNode k n).entryNode = s.entryNode := rfl

/-- `removeNode(nodes_iterator)` at position `k`: `disconnect()` the node there, then erase it from
    `Nodes`, destroying it. The result is the position after the erased one. -/
def removeNodeAt (s : Arena L) (k : Nat) (fuel : Nat) : Option (Except Fault Nat × Arena L) :=
  match s.nodes[k]? with
  | none => some (.error .outOfRange, s)
  | some n =>
    match s.disconnect n fuel with
    | some (.ok (), s) => some (.ok k, s.eraseNode k n)
    | some (.error f, s) => some (.error f, s)
    | none => none

/-- `removeNode(Node const *NodePtr)`: `removeNode(findNode(NodePtr))`. -/
def removeNode (s : Arena L) (m : NodeId) (fuel : Nat) : Option (Except Fault Nat × Arena L) :=
  s.removeNodeAt (s.findNode m) fuel

/-- `setEntryNode(EntryNode)`. -/
def setEntryNode (s : Arena L) (n : Option NodeId) : Arena L := { s with entryNode := n }

@[simp] theorem entryNode_setEntryNode (s : Arena L) (n : Option NodeId) :
    (s.setEntryNode n).entryNode = n := rfl
@[simp] theorem edges_setEntryNode (s : Arena L) (n : Option NodeId) :
    (s.setEntryNode n).edges = s.edges := rfl
@[simp] theorem live_setEntryNode (s : Arena L) (n : Option NodeId) :
    (s.setEntryNode n).live = s.live := rfl
@[simp] theorem parent_setEntryNode (s : Arena L) (n : Option NodeId) :
    (s.setEntryNode n).parent = s.parent := rfl
@[simp] theorem nextNode_setEntryNode (s : Arena L) (n : Option NodeId) :
    (s.setEntryNode n).nextNode = s.nextNode := rfl
@[simp] theorem labels_setEntryNode (s : Arena L) (n : Option NodeId) :
    (s.setEntryNode n).labels = s.labels := rfl
@[simp] theorem nodes_setEntryNode (s : Arena L) (n : Option NodeId) :
    (s.setEntryNode n).nodes = s.nodes := rfl

end Arena

/-! ## The public API as steps -/

/-- A call of the public API of `GenericGraph` and `MutableEdgeNode`. -/
inductive Op (L : Type) where
  /-- `std::make_unique<NodeT>(...)` outside of the graph. -/
  | makeNode (init : NodeInit)
  /-- `GenericGraph::addNode(std::unique_ptr<NodeT> &&)`. -/
  | addNode (n : NodeId)
  /-- `GenericGraph::addNode(Args &&...)`. -/
  | addNodeArgs (init : NodeInit)
  | addSuccessor (n m : NodeId) (el : L)
  | addPredecessor (n m : NodeId) (el : L)
  /-- `removeSuccessor` of an iterator at position `i`. -/
  | removeSuccessorAt (n : NodeId) (i : Nat)
  | removeSuccessor (n m : NodeId)
  /-- `removePredecessor` of an iterator at position `i`. -/
  | removePredecessorAt (n : NodeId) (i : Nat)
  | removePredecessor (n m : NodeId)
  | disconnect (n : NodeId)
  /-- `GenericGraph::removeNode` of an iterator at position `k`. -/
  | removeNodeAt (k : Nat)
  | removeNode (n : NodeId)
  | setEntryNode (n : NodeId)

namespace Arena

variable {L : Type}

/-- Forget what a call returns, keep whether it returned. -/
def done {α : Type} : Except Fault α × Arena L → Except Fault Unit × Arena L
  | (r, s) => (r.map fun _ => (), s)

/-- Run one call; `fuel` bounds the loops of `disconnect`. -/
def step (s : Arena L) (fuel : Nat) : Op L → Option (Except Fault Unit × Arena L)
  | .makeNode init => some (.ok (), (s.makeNode init).2)
  | .addNode n => some (.ok (), (s.addNode n).2)
  | .addNodeArgs init => some (.ok (), (s.addNodeArgs init).2)
  | .addSuccessor n m el => some (done (s.addSuccessor n m el))
  | .addPredecessor n m el => some (done (s.addPredecessor n m el))
  | .removeSuccessorAt n i => some (done (s.removeSuccessorImpl n i))
  | .removeSuccessor n m => some (done (s.removeSuccessor n m))
  | .removePredecessorAt n i => some (done (s.removePredecessorImpl n i))
  | .removePredecessor n m => some (done (s.removePredecessor n m))
  | .disconnect n => s.disconnect n fuel
  | .removeNodeAt k => (s.removeNodeAt k fuel).map done
  | .removeNode n => (s.removeNode n fuel).map done
  | .setEntryNode n => some (.ok (), s.setEntryNode (some n))

end Arena

end Revng
