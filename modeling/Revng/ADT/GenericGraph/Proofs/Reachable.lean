import Revng.ADT.GenericGraph.Proofs.Disconnect
import Revng.ADT.GenericGraph.Proofs.NodeStore

set_option autoImplicit false

/-! # Runs of a program over `GenericGraph` and `MutableEdgeNode`

A program reaches an arena from the empty one through calls of the API (`Op`) that do not stop on a
fault, each within what the callers of the API promise (`Op.Allowed`): methods are called on live
nodes, `addNode` is handed a `unique_ptr` to a node no graph owns, and removals name what is there.
Copy-constructing a node from a `const` node is admitted only when `copies` is set. `Reachable`
records the node events of the run, the history against which `nodes()` is specified
(`ownedNodes`).

Without copies, every reachable arena has the mirror layout and a node store that matches its history
(`Reachable.inv`, one case per call). With copies the layout breaks, and `disconnect` can spin. -/

namespace Revng

/-! ## What callers promise -/

/-- Which `make_unique` a run admits: a copy only when `copies` is set, of a live node. -/
def NodeInit.Allowed {L : Type} (copies : Bool) (s : Arena L) : NodeInit → Prop
  | .fresh => True
  | .copy src => copies = true ∧ s.live src = true

instance {L : Type} (copies : Bool) (s : Arena L) : (init : NodeInit) →
    Decidable (init.Allowed copies s)
  | .fresh => inferInstanceAs (Decidable True)
  | .copy src => inferInstanceAs (Decidable (copies = true ∧ s.live src = true))

namespace Op

variable {L : Type}

/-- What the callers of the API promise of a call on arena `s`. -/
def Allowed (copies : Bool) (s : Arena L) : Op L → Prop
  | .makeNode init => init.Allowed copies s
  | .addNode n => s.live n = true ∧ n ∉ s.nodes
  | .addNodeArgs init => init.Allowed copies s
  | .addSuccessor n m _ => s.live n = true ∧ s.live m = true
  | .addPredecessor n m _ => s.live n = true ∧ s.live m = true
  | .removeSuccessorAt n i => s.live n = true ∧ i < (s.successors n).length
  | .removeSuccessor n m => s.live n = true ∧ ∃ e ∈ s.successors n, e.neighbor = m
  | .removePredecessorAt n i => s.live n = true ∧ i < (s.predecessors n).length
  | .removePredecessor n m => s.live n = true ∧ ∃ e ∈ s.predecessors n, e.neighbor = m
  | .disconnect n => s.live n = true
  | .removeNodeAt k => k < s.nodes.length
  | .removeNode n => n ∈ s.nodes
  | .setEntryNode n => n ∈ s.nodes

instance (copies : Bool) (s : Arena L) : (op : Op L) → Decidable (op.Allowed copies s)
  | .makeNode init | .addNodeArgs init => inferInstanceAs (Decidable (init.Allowed copies s))
  | .addNode n => inferInstanceAs (Decidable (s.live n = true ∧ n ∉ s.nodes))
  | .addSuccessor n m _ | .addPredecessor n m _ =>
    inferInstanceAs (Decidable (s.live n = true ∧ s.live m = true))
  | .removeSuccessorAt n i =>
    inferInstanceAs (Decidable (s.live n = true ∧ i < (s.successors n).length))
  | .removeSuccessor n m =>
    inferInstanceAs (Decidable (s.live n = true ∧ ∃ e ∈ s.successors n, e.neighbor = m))
  | .removePredecessorAt n i =>
    inferInstanceAs (Decidable (s.live n = true ∧ i < (s.predecessors n).length))
  | .removePredecessor n m =>
    inferInstanceAs (Decidable (s.live n = true ∧ ∃ e ∈ s.predecessors n, e.neighbor = m))
  | .disconnect n => inferInstanceAs (Decidable (s.live n = true))
  | .removeNodeAt k => inferInstanceAs (Decidable (k < s.nodes.length))
  | .removeNode n | .setEntryNode n => inferInstanceAs (Decidable (n ∈ s.nodes))

/-- The node events of a call on arena `s`. -/
def events (s : Arena L) : Op L → List NodeEvent
  | .addNode n => [.added n]
  | .addNodeArgs _ => [.added s.nextNode]
  | .removeNodeAt k => (s.nodes[k]?.map NodeEvent.removed).toList
  | .removeNode n => [.removed n]
  | _ => []

end Op

namespace Arena

variable {L : Type}

/-- The arenas a program reaches from the empty one, with the node events on the way. -/
inductive Reachable (copies : Bool) : Arena L → List NodeEvent → Prop
  | empty : Reachable copies Arena.empty []
  | step {s s' : Arena L} {h : List NodeEvent} (op : Op L) (fuel : Nat) :
      Reachable copies s h → op.Allowed copies s → s.step fuel op = some (.ok (), s') →
      Reachable copies s' (h ++ op.events s)

/-! ## One call -/

variable {s s' : Arena L} {h : List NodeEvent}

theorem snd_of_done {α : Type} {p : Except Fault α × Arena L}
    (hp : some (done p) = some ((.ok () : Except Fault Unit), s')) : p.2 = s' :=
  congrArg Prod.snd (Option.some.inj hp)

/-- A `removeNode` at position `k` that returns has disconnected the node there and erased it. -/
theorem removeNodeAt_eq_ok {k fuel : Nat}
    (hr : (s.removeNodeAt k fuel).map done = some (.ok (), s')) :
    ∃ n s₁, s.nodes[k]? = some n ∧ s.disconnect n fuel = some (.ok (), s₁) ∧
      s' = s₁.eraseNode k n := by
  unfold removeNodeAt at hr
  split at hr
  · simp [done, Except.map] at hr
  · next n hk =>
    split at hr
    · next s₁ hd => exact ⟨n, s₁, hk, hd, (snd_of_done hr).symm⟩
    · simp [done, Except.map] at hr
    · simp at hr

/-- Erasing a node that no edge touches keeps the layout. -/
theorem Mirror.eraseNode (hs : s.Mirror) {n : NodeId}
    (hiso : ∀ d x e, e ∈ s.edges d x → x ≠ n ∧ e.neighbor ≠ n) (k : Nat) :
    (s.eraseNode k n).Mirror :=
  hs.of_edges_eq rfl rfl fun d x e he => by
    obtain ⟨hx, he'⟩ := hiso d x e he
    simpa [Function.update_noteq hx, Function.update_noteq he'] using hs.live d x e he

/-- `removeNode` at a position that returns, on a mirrored arena. -/
theorem inv_removeNodeAt (hs : s.Mirror) (hn : NodeStore s h) {k fuel : Nat}
    (hr : (s.removeNodeAt k fuel).map done = some (.ok (), s')) :
    ∃ n, s.nodes[k]? = some n ∧ s'.Mirror ∧ NodeStore s' (h ++ [.removed n]) := by
  obtain ⟨n, s₁, hk, hd, rfl⟩ := removeNodeAt_eq_ok hr
  obtain ⟨-, hs₁, hfr, hmem⟩ := hs.disconnect_eq_some hd
  exact ⟨n, hk, hs₁.eraseNode (fun d x e he => ((hmem d x e).1 he).2) k,
    (hn.eraseNode hk).of_sameNodes (hfr.sameNodes.eraseNode k n)⟩

/-- One call of a run without copies keeps the layout and the node store. -/
theorem inv_step (hs : s.Mirror) (hn : NodeStore s h) {op : Op L} {fuel : Nat}
    (ha : op.Allowed false s) (hstep : s.step fuel op = some (.ok (), s')) :
    s'.Mirror ∧ NodeStore s' (h ++ op.events s) := by
  cases op with
  | makeNode init =>
    cases init with
    | fresh =>
      cases hstep
      exact ⟨hs.makeNode hn.live_nextNode, by simpa [Op.events] using hn.makeNode .fresh⟩
    | copy => exact absurd ha.1 Bool.false_ne_true
  | addNode n =>
    cases hstep
    exact ⟨hs.addNode n, hn.addNode ha.1 ha.2⟩
  | addNodeArgs init =>
    cases init with
    | fresh =>
      cases hstep
      exact ⟨(hs.makeNode hn.live_nextNode).addNode _, (hn.makeNode .fresh).addNode (by simp)
        fun hm => Nat.lt_irrefl _ (hn.lt_of_mem hm)⟩
    | copy => exact absurd ha.1 Bool.false_ne_true
  | addSuccessor n m el =>
    obtain rfl := snd_of_done hstep
    simpa [Op.events] using ⟨hs.addSuccessor ha.1 ha.2 el,
      hn.of_sameNodes (addSuccessor_sameNodes s n m el)⟩
  | addPredecessor n m el =>
    obtain rfl := snd_of_done hstep
    have hst := hs.addSuccessor ha.2 ha.1 el
    rw [← hs.addPredecessor_eq] at hst
    simpa [Op.events] using ⟨hst, hn.of_sameNodes (addPredecessor_sameNodes s n m el)⟩
  | removeSuccessorAt n i =>
    obtain rfl := snd_of_done hstep
    simpa [Op.events] using ⟨hs.removeImpl ha.2,
      hn.of_sameNodes (removeImpl_edgesOnly s .succ n i).sameNodes⟩
  | removeSuccessor n m =>
    obtain rfl := snd_of_done hstep
    simpa [Op.events] using ⟨hs.removeImpl (findImpl_lt_iff.2 ha.2),
      hn.of_sameNodes (removeImpl_edgesOnly s .succ n _).sameNodes⟩
  | removePredecessorAt n i =>
    obtain rfl := snd_of_done hstep
    simpa [Op.events] using ⟨hs.removeImpl ha.2,
      hn.of_sameNodes (removeImpl_edgesOnly s .pred n i).sameNodes⟩
  | removePredecessor n m =>
    obtain rfl := snd_of_done hstep
    simpa [Op.events] using ⟨hs.removeImpl (findImpl_lt_iff.2 ha.2),
      hn.of_sameNodes (removeImpl_edgesOnly s .pred n _).sameNodes⟩
  | disconnect n =>
    obtain ⟨-, hs', hfr, -⟩ := hs.disconnect_eq_some hstep
    simpa [Op.events] using ⟨hs', hn.of_sameNodes hfr.sameNodes⟩
  | removeNodeAt k =>
    obtain ⟨n, hk, hs', hn'⟩ := inv_removeNodeAt hs hn hstep
    simpa [Op.events, hk] using ⟨hs', hn'⟩
  | removeNode m =>
    obtain ⟨n, hk, hs', hn'⟩ := inv_removeNodeAt hs hn hstep
    obtain ⟨rfl, -⟩ := getElem?_findNode.1 hk
    exact ⟨hs', hn'⟩
  | setEntryNode n =>
    cases hstep
    simpa [Op.events] using ⟨hs.setEntryNode _, hn.setEntryNode ha⟩

/-- Every arena a run without copies reaches is mirrored and has the node store of its history. -/
theorem Reachable.inv (hr : Reachable false s h) : s.Mirror ∧ NodeStore s h := by
  induction hr with
  | empty => exact ⟨.empty, .empty⟩
  | step _ _ _ ha hstep ih => exact inv_step ih.1 ih.2 ha hstep

/-- `removeNode` of a listed node on a mirrored arena: with fuel beyond the node's degrees it
    returns the position `findNode` gave, having disconnected the node and erased it. -/
theorem Mirror.removeNode_of_mem (hs : s.Mirror) {m : NodeId} (hm : m ∈ s.nodes) :
    ∃ s₁, (∀ fuel, (s.successors m).length < fuel → (s.predecessors m).length < fuel →
        s.removeNode m fuel = some (.ok (s.findNode m), s₁.eraseNode (s.findNode m) m)) ∧
      EdgesOnly s s₁ ∧ ∀ d x e, e ∈ s₁.edges d x ↔ e ∈ s.edges d x ∧ x ≠ m ∧ e.neighbor ≠ m := by
  obtain ⟨s₁, hrun, -, hfr, hmem⟩ := hs.exists_disconnect m
  have hk : s.nodes[s.findNode m]? = some m := getElem?_findNode.2 ⟨rfl, hm⟩
  refine ⟨s₁, fun fuel h₁ h₂ => ?_, hfr, hmem⟩
  simp only [removeNode, removeNodeAt, hk, hrun fuel h₁ h₂]

/-! ## Sample runs -/

/-- The chain `A → B → C` is reached without copies. -/
theorem Reachable.chainABC : Reachable false chainABC [.added 0, .added 1, .added 2] :=
  .step (.addSuccessor 1 2 ()) 0 (.step (.addSuccessor 0 1 ()) 0
    (.step (.addNodeArgs .fresh) 0 (.step (.addNodeArgs .fresh) 0
      (.step (.addNodeArgs .fresh) 0 .empty trivial rfl) trivial rfl) trivial rfl)
    (by decide) rfl) (by decide) rfl

/-! ## The layout of a run -/

/-- The mirror layout of every arena a run without copies reaches: a list names a neighbour at most
    once; `A`'s successors name `B` exactly when `B`'s predecessors name `A`, with the same label
    allocation; owners do not share allocations, and a view's allocation is that of its owner, on
    the heap; edges join live nodes. -/
theorem reachable_mirror_layout (hr : Reachable false s h) :
    (∀ d a b, ((s.edges d a).map HalfEdge.neighbor).count b ≤ 1) ∧
    (∀ a b, (∃ l, s.IsEdge a b l) ↔ ∃ l, (⟨a, l⟩ : HalfEdge) ∈ s.predecessors b) ∧
    (∀ a b l, (⟨b, l⟩ : HalfEdge) ∈ s.successors a ↔ (⟨a, l⟩ : HalfEdge) ∈ s.predecessors b) ∧
    (∀ a a' e e', e ∈ s.successors a → e' ∈ s.successors a' → e.label = e'.label →
      a = a' ∧ e = e') ∧
    (∀ b v, v ∈ s.predecessors b →
      (⟨b, v.label⟩ : HalfEdge) ∈ s.successors v.neighbor ∧ v.label < s.labels.length) ∧
    (∀ d n e, e ∈ s.edges d n → s.live n = true ∧ s.live e.neighbor = true) := by
  obtain ⟨hs, -⟩ := hr.inv
  refine ⟨fun d a b => List.nodup_iff_count_le_one.1 (hs.nodup d a) b,
    fun a b => exists_congr fun l => hs.mirror a b l, hs.mirror, hs.owner_unique,
    fun b v hv => ⟨(hs.mirror _ _ _).2 hv, hs.label_lt_of_mem hv⟩, hs.live⟩

theorem reachable_mirror_layout_chainABC :
    Reachable false chainABC [.added 0, .added 1, .added 2] ∧
    ((∀ d a b, ((chainABC.edges d a).map HalfEdge.neighbor).count b ≤ 1) ∧
    (∀ a b, (∃ l, chainABC.IsEdge a b l) ↔ ∃ l, (⟨a, l⟩ : HalfEdge) ∈ chainABC.predecessors b) ∧
    (∀ a b l, (⟨b, l⟩ : HalfEdge) ∈ chainABC.successors a ↔
      (⟨a, l⟩ : HalfEdge) ∈ chainABC.predecessors b) ∧
    (∀ a a' e e', e ∈ chainABC.successors a → e' ∈ chainABC.successors a' →
      e.label = e'.label → a = a' ∧ e = e') ∧
    (∀ b v, v ∈ chainABC.predecessors b → (⟨b, v.label⟩ : HalfEdge) ∈
      chainABC.successors v.neighbor ∧ v.label < chainABC.labels.length) ∧
    (∀ d n e, e ∈ chainABC.edges d n → chainABC.live n = true ∧ chainABC.live e.neighbor = true)) :=
  ⟨Reachable.chainABC, reachable_mirror_layout Reachable.chainABC⟩

/-! ## The node store of a run -/

/-- The node store of every arena a run without copies reaches: `nodes()` lists the nodes added
    and not removed, once each, in insertion order; `findNode` and `hasNode` find exactly those;
    each has the graph as parent; and `removeNode` of any of them returns, erases it from `nodes()`,
    leaves no record naming it and keeps every other edge with its allocation. -/
theorem reachable_nodes_eq_ownedNodes (hr : Reachable false s h) :
    s.nodes = ownedNodes h ∧ s.nodes.Nodup ∧
    (∀ n, s.nodes[s.findNode n]? = some n ↔ n ∈ s.nodes) ∧
    (∀ n, s.hasNode n = true ↔ n ∈ s.nodes) ∧
    (∀ n ∈ s.nodes, s.parent n = true) ∧
    ∀ n ∈ s.nodes, ∃ s', (∀ fuel, (s.successors n).length < fuel →
        (s.predecessors n).length < fuel → s.removeNode n fuel = some (.ok (s.findNode n), s')) ∧
      Reachable false s' (h ++ [.removed n]) ∧ s'.nodes = s.nodes.erase n ∧
      (∀ d x e, e ∈ s'.edges d x → e.neighbor ≠ n) ∧
      ∀ a b l, a ≠ n → b ≠ n → (s'.IsEdge a b l ↔ s.IsEdge a b l) := by
  obtain ⟨hs, hn⟩ := hr.inv
  refine ⟨hn.nodes_eq, hn.nodup, fun n => by simp [getElem?_findNode], fun n => hasNode_iff,
    hn.parent_of_mem, fun n hm => ?_⟩
  obtain ⟨s₁, hrun, hfr, hmem⟩ := hs.removeNode_of_mem hm
  have hfuel := hrun ((s.successors n).length + (s.predecessors n).length + 1) (by omega) (by omega)
  refine ⟨_, hrun, .step (.removeNode n) _ hr hm (by rw [Arena.step, hfuel]; rfl), ?_,
    fun d x e he => ((hmem d x e).1 he).2.2, fun a b l ha hb => ?_⟩
  · rw [nodes_eraseNode, hfr.nodes, eraseIdx_findNode]
  · simp [IsEdge, hmem, ha, hb]

theorem reachable_nodes_eq_ownedNodes_chainABC :
    Reachable false chainABC [.added 0, .added 1, .added 2] ∧
    (chainABC.nodes = ownedNodes [.added 0, .added 1, .added 2] ∧ chainABC.nodes.Nodup ∧
    (∀ n, chainABC.nodes[chainABC.findNode n]? = some n ↔ n ∈ chainABC.nodes) ∧
    (∀ n, chainABC.hasNode n = true ↔ n ∈ chainABC.nodes) ∧
    (∀ n ∈ chainABC.nodes, chainABC.parent n = true) ∧
    ∀ n ∈ chainABC.nodes, ∃ s', (∀ fuel, (chainABC.successors n).length < fuel →
        (chainABC.predecessors n).length < fuel →
        chainABC.removeNode n fuel = some (.ok (chainABC.findNode n), s')) ∧
      Reachable false s' ([.added 0, .added 1, .added 2] ++ [.removed n]) ∧
      s'.nodes = chainABC.nodes.erase n ∧
      (∀ d x e, e ∈ s'.edges d x → e.neighbor ≠ n) ∧
      ∀ a b l, a ≠ n → b ≠ n → (s'.IsEdge a b l ↔ chainABC.IsEdge a b l)) :=
  ⟨Reachable.chainABC, reachable_nodes_eq_ownedNodes Reachable.chainABC⟩

/-! ## The entry node -/

/-- Node `A = 0` is added and made the entry node, then removed. -/
def entryRemoved : Arena Unit :=
  ((Arena.empty.addNodeArgs .fresh).2.setEntryNode (some 0)).eraseNode 0 0

theorem Reachable.entryRemoved : Reachable false entryRemoved [.added 0, .removed 0] :=
  .step (.removeNode 0) 1 (.step (.setEntryNode 0) 0
    (.step (.addNodeArgs .fresh) 0 .empty trivial rfl) (by decide) rfl) (by decide) rfl

/-- `removeNode` does not reset `EntryNode`: after removing the entry node, `getEntryNode()`
    points at the destroyed node. -/
theorem entryNode_dangles :
    Reachable false entryRemoved [.added 0, .removed 0] ∧ entryRemoved.entryNode = some 0 ∧
      0 ∉ entryRemoved.nodes ∧ entryRemoved.live 0 = false :=
  ⟨Reachable.entryRemoved, rfl, by decide, rfl⟩

/-- The entry node of a reachable arena is null, listed, or a node the run removed and destroyed. -/
theorem reachable_entryNode (hr : Reachable false s h) {n : NodeId} (he : s.entryNode = some n) :
    n ∈ s.nodes ∨ (NodeEvent.removed n ∈ h ∧ s.live n = false) := by
  obtain ⟨-, hn⟩ := hr.inv
  exact (hn.entry n he).imp_right fun hr => ⟨hr, hn.dead_of_removed n hr⟩

theorem reachable_entryNode_entryRemoved :
    Reachable false entryRemoved [.added 0, .removed 0] ∧ entryRemoved.entryNode = some 0 ∧
      (0 ∈ entryRemoved.nodes ∨
        (NodeEvent.removed 0 ∈ [NodeEvent.added 0, .removed 0] ∧ entryRemoved.live 0 = false)) :=
  ⟨Reachable.entryRemoved, rfl, reachable_entryNode Reachable.entryRemoved rfl⟩

/-! ## Runs with copies -/

/-- Nodes `A = 0` and `B = 1` with `A → B`; `C = 2` is added as a copy of `A`
    (`addNode(std::as_const(*A))`), so `C` owns a record for `B` that `B` does not mirror; then
    `A.removeSuccessor(B)` removes the one edge `B` knew of. -/
def copyOfA : Arena Unit :=
  let s := (((Arena.empty.addNodeArgs .fresh).2.addNodeArgs .fresh).2.addSuccessor 0 1 ()).2
  ((s.addNodeArgs (.copy 0)).2.removeSuccessor 0 1).2

theorem Reachable.copyOfA : Reachable true copyOfA [.added 0, .added 1, .added 2] :=
  .step (.removeSuccessor 0 1) 0 (.step (.addNodeArgs (.copy 0)) 0
    (.step (.addSuccessor 0 1 ()) 0 (.step (.addNodeArgs .fresh) 0
      (.step (.addNodeArgs .fresh) 0 .empty trivial rfl) trivial rfl) (by decide) rfl)
    (by decide) rfl) (by decide) rfl

theorem removeNodeAt_eq_none {k n fuel : Nat} (hk : s.nodes[k]? = some n)
    (hd : s.disconnect n fuel = none) : s.removeNodeAt k fuel = none := by
  simp [removeNodeAt, hk, hd]

/-- On `copyOfA`, `C.removeSuccessorImpl` at the front finds `B`'s predecessors empty and returns
    the front again without removing anything, so the first loop of `disconnect()` never ends, nor
    does `removeNode(C)`. -/
theorem disconnect_copy_spins :
    Reachable true copyOfA [.added 0, .added 1, .added 2] ∧
    copyOfA.successors 2 = [⟨1, 0⟩] ∧ copyOfA.predecessors 1 = [] ∧
    copyOfA.removeSuccessorImpl 2 0 = (.ok 0, copyOfA) ∧
    (∀ fuel, copyOfA.disconnect 2 fuel = none) ∧ ∀ fuel, copyOfA.removeNode 2 fuel = none := by
  have hstuck : copyOfA.removeImpl .succ 2 0 = (.ok 0, copyOfA) := rfl
  have hd : ∀ fuel, copyOfA.disconnect 2 fuel = none := fun fuel => by
    simp [Arena.disconnect, drain_eq_none_of_stuck hstuck (by decide) fuel]
  exact ⟨Reachable.copyOfA, rfl, rfl, hstuck, hd,
    fun fuel => removeNodeAt_eq_none (by decide) (hd fuel)⟩

end Arena

end Revng
