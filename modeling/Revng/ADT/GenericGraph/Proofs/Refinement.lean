import Revng.ADT.GenericGraph.Proofs.Reachable

set_option autoImplicit false

/-! # What a `GenericGraph` of `MutableEdgeNode`s stands for

A `GenericGraph` of `MutableEdgeNode`s stands for a `LabeledGraph`: the nodes it owns, in order, its
entry node, and over all nodes a simple directed graph, at most one edge per ordered pair, each edge
carrying a label value. `Arena.toGraph` reads it off the arena: the edge `a → b` is the owner naming
`b` in `a`'s successors, and its label is the value its allocation holds on the heap.

`Op.meaning` says what each call of the API does to that graph; positions (`removeSuccessor` of an
iterator, `removeNode` of a `nodes_iterator`) are read in the arena the call is made on. The
refinement theorem `Reachable.step_refines` says that from every arena a run reaches, every call
within what callers promise returns once the fuel exceeds both degrees of the node it disconnects
(`Op.disconnects`), faults only on the duplicate-edge assertion, where the graph refuses the edge,
and otherwise leaves the graph its meaning gives. The removals are stated once for both directions,
through `Op.removeAt` and `Op.removeBy`.

A label is written through an `EdgeView`, of the owner or of the view alike, into the one allocation
both halves refer to: the write relabels exactly its edge of the graph (`Mirror.writeLabel_relabels`).
-/

namespace Revng

/-- A simple directed graph with labeled edges over the nodes, and the nodes a graph owns. -/
@[ext] structure LabeledGraph (L : Type) where
  nodes : List NodeId
  entryNode : Option NodeId
  edge : NodeId → NodeId → Option L

namespace LabeledGraph

variable {L : Type}

/-- Take ownership of node `n`. -/
def addNode (g : LabeledGraph L) (n : NodeId) : LabeledGraph L := { g with nodes := g.nodes ++ [n] }

/-- Give the edge `a → b` the label `v`. -/
def relabel (g : LabeledGraph L) (a b : NodeId) (v : L) : LabeledGraph L :=
  { g with edge := fun x y => if x = a ∧ y = b then some v else g.edge x y }

/-- Add the edge `a → b` labeled `el`; refused when there is one. -/
def addEdge (g : LabeledGraph L) (a b : NodeId) (el : L) : Option (LabeledGraph L) :=
  if (g.edge a b).isSome then none else some (g.relabel a b el)

/-- Remove the edge `a → b`. -/
def removeEdge (g : LabeledGraph L) (a b : NodeId) : LabeledGraph L :=
  { g with edge := fun x y => if x = a ∧ y = b then none else g.edge x y }

/-- Remove every edge with an end at `n`. -/
def isolate (g : LabeledGraph L) (n : NodeId) : LabeledGraph L :=
  { g with edge := fun x y => if x = n ∨ y = n then none else g.edge x y }

/-- Remove node `n` and its edges. The entry node is left as it is, as the code leaves it. -/
def removeNode (g : LabeledGraph L) (n : NodeId) : LabeledGraph L :=
  { g.isolate n with nodes := g.nodes.erase n }

def setEntryNode (g : LabeledGraph L) (n : NodeId) : LabeledGraph L := { g with entryNode := some n }

end LabeledGraph

namespace Arena

variable {L : Type}

/-- The label of the edge `a → b`: the value held by the allocation of the owner naming `b`. -/
def edgeLabel (s : Arena L) (a b : NodeId) : Option L :=
  ((s.successors a).find? (·.neighbor == b)).bind fun e => s.labels[e.label]?

/-- The graph an arena stands for. -/
def toGraph (s : Arena L) : LabeledGraph L := ⟨s.nodes, s.entryNode, s.edgeLabel⟩

end Arena

/-- What a call on arena `s` does to the graph: positions are read in `s`, and `none` is the
    duplicate-edge assertion. -/
def Op.meaning {L : Type} (s : Arena L) : Op L → LabeledGraph L → Option (LabeledGraph L)
  | .makeNode _, g => some g
  | .addNode n, g => some (g.addNode n)
  | .addNodeArgs _, g => some (g.addNode s.nextNode)
  | .addSuccessor n m el, g => g.addEdge n m el
  | .addPredecessor n m el, g => g.addEdge m n el
  | .removeSuccessorAt n i, g => (s.successors n)[i]?.map fun e => g.removeEdge n e.neighbor
  | .removeSuccessor n m, g => some (g.removeEdge n m)
  | .removePredecessorAt n i, g => (s.predecessors n)[i]?.map fun e => g.removeEdge e.neighbor n
  | .removePredecessor n m, g => some (g.removeEdge m n)
  | .disconnect n, g => some (g.isolate n)
  | .removeNodeAt k, g => s.nodes[k]?.map g.removeNode
  | .removeNode n, g => some (g.removeNode n)
  | .setEntryNode n, g => some (g.setEntryNode n)

/-- `removeSuccessor(It)` or `removePredecessor(It)`: the removal at position `i` of node `n`'s
    `d`-list. -/
def Op.removeAt {L : Type} (d : Dir) (n : NodeId) (i : Nat) : Op L :=
  match d with
  | .succ => .removeSuccessorAt n i
  | .pred => .removePredecessorAt n i

/-- `removeSuccessor(S)` or `removePredecessor(P)`: the removal of the half of node `n`'s `d`-list
    that names `m`. -/
def Op.removeBy {L : Type} (d : Dir) (n m : NodeId) : Op L :=
  match d with
  | .succ => .removeSuccessor n m
  | .pred => .removePredecessor n m

/-- The node a call disconnects: `disconnect(N)`, and `GenericGraph::removeNode`, which disconnects
    the node it removes. Its degrees bound the rounds of the loops of `disconnect`. -/
def Op.disconnects {L : Type} (s : Arena L) : Op L → Option NodeId
  | .disconnect n => some n
  | .removeNodeAt k => s.nodes[k]?
  | .removeNode n => some n
  | _ => none

namespace Arena

variable {L : Type} {s s' : Arena L}

/-! ## Reading the label of an edge -/

/-- On a list that names each neighbour once, the search for `b` finds the half naming `b`. -/
theorem find?_neighbor_eq {l : List HalfEdge} (hnd : (l.map HalfEdge.neighbor).Nodup)
    {e : HalfEdge} (he : e ∈ l) {b : NodeId} (hb : e.neighbor = b) :
    l.find? (·.neighbor == b) = some e := by
  cases hf : l.find? (·.neighbor == b) with
  | none => exact absurd (List.find?_eq_none.1 hf e he) (by simp [hb])
  | some e' =>
    have hn : e'.neighbor = e.neighbor := by simpa [hb] using List.find?_some hf
    rw [List.inj_on_of_nodup_map hnd (List.mem_of_find?_eq_some hf) he hn]

theorem edgeLabel_of_mem (hs : s.Mirror) {a b : NodeId} {l : LabelRef}
    (he : (⟨b, l⟩ : HalfEdge) ∈ s.successors a) : s.edgeLabel a b = s.labels[l]? := by
  rw [edgeLabel, successors_eq, find?_neighbor_eq (hs.nodup .succ a) he (b := b) rfl,
    Option.some_bind]

theorem edgeLabel_of_not_mem {a b : NodeId} (h : ∀ l, (⟨b, l⟩ : HalfEdge) ∉ s.successors a) :
    s.edgeLabel a b = none := by
  have hnone : (s.successors a).find? (·.neighbor == b) = none :=
    List.find?_eq_none.2 fun e he hb => h e.label (by simpa [← eq_of_beq hb] using he)
  rw [edgeLabel, hnone, Option.none_bind]

/-- Two mirrored arenas whose lists under `a` hold the same halves naming `b`, with the same value
    in their allocations, give `a → b` the same label. -/
theorem edgeLabel_congr (hs : s.Mirror) (hs' : s'.Mirror) {a b : NodeId}
    (hmem : ∀ l, (⟨b, l⟩ : HalfEdge) ∈ s'.successors a ↔ ⟨b, l⟩ ∈ s.successors a)
    (hlab : ∀ l, (⟨b, l⟩ : HalfEdge) ∈ s.successors a → s'.labels[l]? = s.labels[l]?) :
    s'.edgeLabel a b = s.edgeLabel a b := by
  by_cases h : ∃ l, (⟨b, l⟩ : HalfEdge) ∈ s.successors a
  · obtain ⟨l, hl⟩ := h
    rw [edgeLabel_of_mem hs' ((hmem l).2 hl), edgeLabel_of_mem hs hl, hlab l hl]
  · push_neg at h
    rw [edgeLabel_of_not_mem h, edgeLabel_of_not_mem fun l hl => h l ((hmem l).1 hl)]

/-- The graph has the edge `a → b` exactly when `hasSuccessor` finds it. -/
theorem Mirror.edgeLabel_isSome (hs : s.Mirror) (a b : NodeId) :
    (s.edgeLabel a b).isSome = s.hasSuccessor a b := by
  cases h : s.hasSuccessor a b
  · rw [edgeLabel_of_not_mem fun l hl => by simp [hasSuccessor_iff.2 ⟨l, hl⟩] at h]
    rfl
  · obtain ⟨l, hl⟩ := hasSuccessor_iff.1 h
    rw [edgeLabel_of_mem hs hl, List.getElem?_eq_getElem (hs.label_lt a _ hl)]
    rfl

/-! ## The graph after each call -/

/-- The graph reads the node store, the successor lists and the heap. -/
theorem toGraph_eq_of_edges (hn : s'.nodes = s.nodes) (he : s'.entryNode = s.entryNode)
    (hsucc : s'.edges .succ = s.edges .succ) (hl : s'.labels = s.labels) :
    s'.toGraph = s.toGraph :=
  LabeledGraph.ext hn he (funext₂ fun a b => by
    simp only [toGraph, edgeLabel, successors_eq, hsucc, hl])

/-- A node allocated at a never-used address changes nothing the graph reads. -/
theorem Mirror.toGraph_makeNode (hs : s.Mirror) (hnext : s.live s.nextNode = false) :
    (s.makeNode .fresh).2.toGraph = s.toGraph := by
  refine toGraph_eq_of_edges rfl rfl (funext fun x => ?_) rfl
  rw [edges_makeNode_fresh]
  split_ifs with hx
  · subst hx
    exact (List.eq_nil_iff_forall_not_mem.2 fun e he => by
      simpa [hnext] using (hs.live _ _ e he).1).symm
  · rfl

/-- A new edge `a → b` carries the label it was built with; every other edge keeps its own. -/
theorem Mirror.toGraph_emplaceEdge (hs : s.Mirror) {a b : NodeId}
    (hab : s.hasSuccessor a b = false) (ha : s.live a) (hb : s.live b) (el : L) :
    (s.emplaceEdge a b el).2.toGraph = s.toGraph.relabel a b el := by
  have hs' := hs.emplaceEdge hab ha hb el
  refine LabeledGraph.ext rfl rfl (funext₂ fun x y => ?_)
  show (s.emplaceEdge a b el).2.edgeLabel x y = if x = a ∧ y = b then some el else s.edgeLabel x y
  split_ifs with hxy
  · obtain ⟨rfl, rfl⟩ := hxy
    rw [edgeLabel_of_mem hs' ((mem_successors_emplaceEdge ..).2 (.inr ⟨rfl, rfl⟩)),
      labels_emplaceEdge, List.getElem?_concat_length]
  · refine edgeLabel_congr hs hs' (fun l => ?_) fun l hl => ?_
    · simp only [successors_eq, mem_successors_emplaceEdge, HalfEdge.mk.injEq]
      exact ⟨fun h => h.resolve_right fun h' => hxy ⟨h'.1, h'.2.1⟩, .inl⟩
    · rw [labels_emplaceEdge, List.getElem?_append_left (hs.label_lt x _ hl)]

/-- `removeImpl` at `i` removes the one edge its half belongs to from the graph. -/
theorem Mirror.edgeLabel_removeImpl (hs : s.Mirror) {d : Dir} {n : NodeId} {i : Nat}
    (hi : i < (s.edges d n).length) (x y : NodeId) :
    (s.removeImpl d n i).2.edgeLabel x y =
      if (d = .succ ∧ x = n ∧ y = (s.edges d n)[i].neighbor) ∨
          (d = .pred ∧ x = (s.edges d n)[i].neighbor ∧ y = n) then none
      else s.edgeLabel x y := by
  have hmem := isEdge_removeImpl hs hi x y
  split_ifs with h
  · exact edgeLabel_of_not_mem fun l hl => ((hmem l).1 hl).2 h
  · exact edgeLabel_congr hs (hs.removeImpl hi) (fun l => (hmem l).trans (and_iff_left h))
      fun l _ => by rw [(removeImpl_edgesOnly s d n i).labels]

theorem step_removeAt (s : Arena L) (fuel : Nat) (d : Dir) (n : NodeId) (i : Nat) :
    s.step fuel (Op.removeAt d n i) = some (done (s.removeImpl d n i)) := by
  cases d <;> rfl

/-- After `removeImpl` at `i` the graph is the meaning of the removal at `i`: the edge of the half
    at `i`, and no other, is gone. -/
theorem Mirror.meaning_removeAt (hs : s.Mirror) {d : Dir} {n : NodeId} {i : Nat}
    (hi : i < (s.edges d n).length) :
    (Op.removeAt d n i).meaning s s.toGraph = some (s.removeImpl d n i).2.toGraph := by
  have hfr := removeImpl_edgesOnly s d n i
  cases d <;>
  · simp only [Op.removeAt, Op.meaning, successors_eq, predecessors_eq,
      List.getElem?_eq_getElem hi, Option.map_some']
    exact congrArg some (LabeledGraph.ext hfr.nodes.symm hfr.entryNode.symm (funext₂ fun x y => by
      simp [hs.edgeLabel_removeImpl hi, LabeledGraph.removeEdge, toGraph]))

/-- An arena that lost exactly the halves touching `n` stands for the graph with `n` isolated. -/
theorem Mirror.toGraph_of_isolated (hs : s.Mirror) (hs' : s'.Mirror) (hfr : EdgesOnly s s')
    {n : NodeId} (hmem : ∀ d x e, e ∈ s'.edges d x ↔ e ∈ s.edges d x ∧ x ≠ n ∧ e.neighbor ≠ n) :
    s'.toGraph = s.toGraph.isolate n := by
  refine LabeledGraph.ext hfr.nodes hfr.entryNode (funext₂ fun x y => ?_)
  show s'.edgeLabel x y = if x = n ∨ y = n then none else s.edgeLabel x y
  split_ifs with h
  · exact edgeLabel_of_not_mem fun l hl => by
      have := ((hmem .succ x _).1 hl).2
      tauto
  · push_neg at h
    exact edgeLabel_congr hs hs' (fun l => by simp [hmem, h.1, h.2]) fun l _ => by rw [hfr.labels]

/-! ## Writing a label -/

/-- A label write keeps the layout: it moves no half and keeps the heap's size. -/
theorem Mirror.writeLabel (hs : s.Mirror) (e : HalfEdge) (v : L) : (s.writeLabel e v).Mirror where
  nodup := hs.nodup
  mirror := hs.mirror
  owner_unique := hs.owner_unique
  label_lt n e' he' := by simpa [Arena.writeLabel] using hs.label_lt n e' he'
  live := hs.live

/-- Writing through the view of the owner `(b, l)` of the edge `a → b`, or through its mirror
    `(a, l)` in `b`'s predecessors, on a mirrored arena: the two views write the same allocation,
    the arena stays mirrored, and in the graph the edge `a → b`, and no other, takes the new label. -/
theorem Mirror.writeLabel_relabels (hs : s.Mirror) {a b : NodeId} {l : LabelRef}
    (he : (⟨b, l⟩ : HalfEdge) ∈ s.successors a) (v : L) :
    (⟨a, l⟩ : HalfEdge) ∈ s.predecessors b ∧ s.writeLabel ⟨a, l⟩ v = s.writeLabel ⟨b, l⟩ v ∧
      (s.writeLabel ⟨b, l⟩ v).Mirror ∧
      (s.writeLabel ⟨b, l⟩ v).toGraph = s.toGraph.relabel a b v := by
  have hs' := hs.writeLabel ⟨b, l⟩ v
  refine ⟨(hs.mirror a b l).1 he, rfl, hs', LabeledGraph.ext rfl rfl (funext₂ fun x y => ?_)⟩
  show (s.writeLabel ⟨b, l⟩ v).edgeLabel x y = if x = a ∧ y = b then some v else s.edgeLabel x y
  split_ifs with hxy
  · obtain ⟨rfl, rfl⟩ := hxy
    rw [edgeLabel_of_mem hs' he]
    exact List.getElem?_set_self (hs.label_lt x _ he)
  · refine edgeLabel_congr hs hs' (fun _ => .rfl) fun l' hl' => List.getElem?_set_ne fun hl => ?_
    obtain ⟨rfl, h⟩ := hs.owner_unique _ _ _ _ he hl' hl
    exact hxy ⟨rfl, (HalfEdge.mk.inj h).1.symm⟩

theorem writeLabel_relabels_chainABC :
    chainABC.Mirror ∧ (⟨1, 0⟩ : HalfEdge) ∈ chainABC.successors 0 ∧
    ((⟨0, 0⟩ : HalfEdge) ∈ chainABC.predecessors 1 ∧
      chainABC.writeLabel ⟨0, 0⟩ () = chainABC.writeLabel ⟨1, 0⟩ () ∧
      (chainABC.writeLabel ⟨1, 0⟩ ()).Mirror ∧
      (chainABC.writeLabel ⟨1, 0⟩ ()).toGraph = chainABC.toGraph.relabel 0 1 ()) :=
  ⟨Mirror.chainABC, by decide, Mirror.chainABC.writeLabel_relabels (by decide) ()⟩

/-! ## One call against its meaning -/

/-- The call `op` on `s` with `fuel` returns, and what it does is its meaning on the graph: it
    returns and leaves the graph the meaning gives, or it stops on the duplicate-edge assertion,
    leaving `s` as it was, where the graph refuses the edge. -/
def StepRefines (s : Arena L) (fuel : Nat) (op : Op L) : Prop :=
  ∃ r s', s.step fuel op = some (r, s') ∧
    ((r = .ok () ∧ op.meaning s s.toGraph = some s'.toGraph) ∨
      (r = .error (.assertion onlyOneEdge) ∧ op.meaning s s.toGraph = none ∧ s' = s))

/-- Two calls that run alike and mean alike refine alike. -/
theorem StepRefines.of_eq {fuel : Nat} {op op' : Op L} (h : s.StepRefines fuel op')
    (hstep : s.step fuel op = s.step fuel op') (hm : op.meaning s = op'.meaning s) :
    s.StepRefines fuel op := by
  obtain ⟨r, s', hst, hr⟩ := h
  exact ⟨r, s', hstep.trans hst, hm ▸ hr⟩

theorem done_of_ok {α : Type} {p : Except Fault α × Arena L} {a : α} (h : p.1 = .ok a) :
    done p = (.ok (), p.2) := by
  obtain ⟨r, s⟩ := p
  cases h
  rfl

theorem Mirror.stepRefines_addSuccessor (hs : s.Mirror) {a b : NodeId} (ha : s.live a = true)
    (hb : s.live b = true) (el : L) (fuel : Nat) : s.StepRefines fuel (.addSuccessor a b el) := by
  have hsome := hs.edgeLabel_isSome a b
  cases h : s.hasSuccessor a b
  · refine ⟨_, _, by rw [step, addSuccessor_of_not_hasSuccessor h]; rfl, .inl ⟨rfl, ?_⟩⟩
    rw [hs.toGraph_emplaceEdge h ha hb el]
    simp [Op.meaning, LabeledGraph.addEdge, toGraph, hsome, h]
  · refine ⟨_, _, by rw [step, addSuccessor_of_hasSuccessor h]; rfl, .inr ⟨rfl, ?_, rfl⟩⟩
    simp [Op.meaning, LabeledGraph.addEdge, toGraph, hsome, h]

theorem Mirror.stepRefines_removeAt (hs : s.Mirror) {d : Dir} {n : NodeId} {i : Nat}
    (hi : i < (s.edges d n).length) (fuel : Nat) : s.StepRefines fuel (Op.removeAt d n i) :=
  ⟨_, _, (step_removeAt s fuel d n i).trans (congrArg some (done_of_ok (removeImpl_spec hs hi).1)),
    .inl ⟨rfl, hs.meaning_removeAt hi⟩⟩

/-- A removal by neighbour is the removal at the position `findImpl` finds. -/
theorem Mirror.stepRefines_removeBy (hs : s.Mirror) {d : Dir} {n m : NodeId}
    (hm : ∃ e ∈ s.edges d n, e.neighbor = m) (fuel : Nat) :
    s.StepRefines fuel (Op.removeBy d n m) := by
  have hi : s.findImpl d n m < (s.edges d n).length := findImpl_lt_iff.2 hm
  refine (hs.stepRefines_removeAt hi fuel).of_eq (by cases d <;> rfl) (funext fun g => ?_)
  cases d <;> simp only [Op.removeBy, Op.removeAt, Op.meaning, successors_eq, predecessors_eq,
    List.getElem?_eq_getElem hi, Option.map_some', neighbor_findImpl hi]

theorem Mirror.stepRefines_disconnect (hs : s.Mirror) {n : NodeId} {fuel : Nat}
    (hsucc : (s.successors n).length < fuel) (hpred : (s.predecessors n).length < fuel) :
    s.StepRefines fuel (.disconnect n) := by
  obtain ⟨s', hrun, hs', hfr, hmem⟩ := hs.exists_disconnect n
  exact ⟨_, _, hrun fuel hsucc hpred,
    .inl ⟨rfl, congrArg some (hs.toGraph_of_isolated hs' hfr hmem).symm⟩⟩

theorem Mirror.stepRefines_removeNodeAt (hs : s.Mirror) (hnd : s.nodes.Nodup) {k fuel : Nat}
    {n : NodeId} (hkn : s.nodes[k]? = some n) (hsucc : (s.successors n).length < fuel)
    (hpred : (s.predecessors n).length < fuel) : s.StepRefines fuel (.removeNodeAt k) := by
  obtain ⟨hk, rfl⟩ := List.getElem?_eq_some_iff.1 hkn
  obtain ⟨s₁, hrun, hs₁, hfr, hmem⟩ := hs.exists_disconnect s.nodes[k]
  have hg := hs.toGraph_of_isolated hs₁ hfr hmem
  refine ⟨.ok (), s₁.eraseNode k s.nodes[k], ?_, .inl ⟨rfl, ?_⟩⟩
  · simp only [step, removeNodeAt, List.getElem?_eq_getElem hk, hrun fuel hsucc hpred,
      Option.map_some']
    rfl
  · rw [Op.meaning, List.getElem?_eq_getElem hk, Option.map_some']
    refine congrArg some (LabeledGraph.ext ?_ hfr.entryNode.symm (congrArg LabeledGraph.edge hg).symm)
    show s.nodes.erase s.nodes[k] = s₁.nodes.eraseIdx k
    rw [hfr.nodes, hnd.erase_getElem k hk]

/-- Every call of a run without copies, from any arena the run reaches and within what callers
    promise, returns once the fuel exceeds the degrees of the node it disconnects, and refines its
    meaning on the graph: it stops only on the duplicate-edge assertion of `addSuccessor` and
    `addPredecessor`, exactly when the graph already has the edge, and leaves the arena as it was;
    otherwise the graph of the arena it leaves is the meaning's. -/
theorem Reachable.step_refines {h : List NodeEvent} (hr : Reachable false s h) {op : Op L}
    (ha : op.Allowed false s) (fuel : Nat)
    (hfuel : ∀ n, op.disconnects s = some n →
      (s.successors n).length < fuel ∧ (s.predecessors n).length < fuel) :
    s.StepRefines fuel op := by
  obtain ⟨hs, hn⟩ := hr.inv
  cases op with
  | makeNode init =>
    cases init with
    | fresh => exact ⟨_, _, rfl, .inl ⟨rfl,
        congrArg some (hs.toGraph_makeNode hn.live_nextNode).symm⟩⟩
    | copy => exact absurd ha.1 Bool.false_ne_true
  | addNode n => exact ⟨_, _, rfl, .inl ⟨rfl, rfl⟩⟩
  | addNodeArgs init =>
    cases init with
    | fresh => exact ⟨_, _, rfl, .inl ⟨rfl, by
        rw [Op.meaning, addNodeArgs, ← hs.toGraph_makeNode hn.live_nextNode]; rfl⟩⟩
    | copy => exact absurd ha.1 Bool.false_ne_true
  | addSuccessor n m el => exact hs.stepRefines_addSuccessor ha.1 ha.2 el fuel
  | addPredecessor n m el =>
    exact (hs.stepRefines_addSuccessor ha.2 ha.1 el fuel).of_eq
      (by rw [Arena.step, Arena.step, hs.addPredecessor_eq]) rfl
  | removeSuccessorAt n i => exact hs.stepRefines_removeAt (d := .succ) ha.2 fuel
  | removeSuccessor n m => exact hs.stepRefines_removeBy (d := .succ) ha.2 fuel
  | removePredecessorAt n i => exact hs.stepRefines_removeAt (d := .pred) ha.2 fuel
  | removePredecessor n m => exact hs.stepRefines_removeBy (d := .pred) ha.2 fuel
  | disconnect n => exact hs.stepRefines_disconnect (hfuel n rfl).1 (hfuel n rfl).2
  | removeNodeAt k =>
    have hk : s.nodes[k]? = some s.nodes[k] := List.getElem?_eq_getElem ha
    exact hs.stepRefines_removeNodeAt hn.nodup hk (hfuel _ hk).1 (hfuel _ hk).2
  | removeNode n =>
    have hk : s.nodes[s.findNode n]? = some n := getElem?_findNode.2 ⟨rfl, ha⟩
    exact (hs.stepRefines_removeNodeAt hn.nodup hk (hfuel n rfl).1 (hfuel n rfl).2).of_eq rfl
      (funext fun g => by simp only [Op.meaning, hk, Option.map_some'])
  | setEntryNode n => exact ⟨_, _, rfl, .inl ⟨rfl, rfl⟩⟩

/-- `removeNode(B)` on the chain `A → B → C`, with fuel beyond `B`'s degrees. -/
theorem step_refines_chainABC :
    Reachable false chainABC [.added 0, .added 1, .added 2] ∧
    (Op.removeNode 1 : Op Unit).Allowed false chainABC ∧
    (∀ n, (Op.removeNode 1 : Op Unit).disconnects chainABC = some n →
      (chainABC.successors n).length < 2 ∧ (chainABC.predecessors n).length < 2) ∧
    chainABC.StepRefines 2 (.removeNode 1) :=
  have hfuel : ∀ n, (Op.removeNode 1 : Op Unit).disconnects chainABC = some n →
      (chainABC.successors n).length < 2 ∧ (chainABC.predecessors n).length < 2 :=
    fun n hn => by
      cases (hn : some 1 = some n)
      decide
  ⟨Reachable.chainABC, by decide, hfuel,
    Reachable.step_refines Reachable.chainABC (by decide) 2 hfuel⟩

end Arena

end Revng
