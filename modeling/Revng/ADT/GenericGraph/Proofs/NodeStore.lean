import Revng.ADT.GenericGraph.Proofs.Mirror

set_option autoImplicit false

/-! # The node store of `GenericGraph`

`Nodes` is specified against the history of the run: the node events `addNode` and `removeNode`
record, and `ownedNodes`, the nodes added and not removed since, in the order they were added.
`NodeStore` is what a run keeps of it: `nodes()` is `ownedNodes` of the history, a listed node is
live and has the graph as parent, a removed node is destroyed, and the entry node is listed or was
removed (nothing clears it). One lemma per call of the API that touches the store.

`removeNode` does not check what `findNode` returns: for a node that is not listed, that is
`end()`, and `removeNode(end())` dereferences it (`removeNode_of_not_mem`). -/

namespace Revng

/-- A change of the set of nodes the graph owns. -/
inductive NodeEvent where
  | added (n : NodeId)
  | removed (n : NodeId)
deriving DecidableEq, Repr

/-- The node an event is about. -/
def NodeEvent.node : NodeEvent → NodeId
  | .added n => n
  | .removed n => n

@[simp] theorem NodeEvent.node_added (n : NodeId) : (NodeEvent.added n).node = n := rfl
@[simp] theorem NodeEvent.node_removed (n : NodeId) : (NodeEvent.removed n).node = n := rfl

/-- The node an `added` event adds. -/
def NodeEvent.added? : NodeEvent → Option NodeId
  | .added n => some n
  | .removed _ => none

/-- What `nodes()` should list after the events `h`: the nodes added and not removed since, in the
    order they were added. -/
def ownedNodes (h : List NodeEvent) : List NodeId :=
  (h.filterMap NodeEvent.added?).filter fun n => NodeEvent.removed n ∉ h

theorem mem_ownedNodes {h : List NodeEvent} {n : NodeId} :
    n ∈ ownedNodes h ↔ NodeEvent.added n ∈ h ∧ NodeEvent.removed n ∉ h := by
  simp only [ownedNodes, List.mem_filter, List.mem_filterMap, decide_eq_true_eq]
  constructor
  · rintro ⟨⟨e, he, hen⟩, hr⟩
    cases e <;> simp_all [NodeEvent.added?]
  · exact fun ⟨ha, hr⟩ => ⟨⟨_, ha, rfl⟩, hr⟩

theorem ownedNodes_added {h : List NodeEvent} {n : NodeId} (hn : NodeEvent.removed n ∉ h) :
    ownedNodes (h ++ [.added n]) = ownedNodes h ++ [n] := by
  simp [ownedNodes, List.filterMap_append, List.filter_append, NodeEvent.added?, hn]

theorem ownedNodes_removed {h : List NodeEvent} (hnd : (h.filterMap NodeEvent.added?).Nodup)
    (n : NodeId) : ownedNodes (h ++ [.removed n]) = (ownedNodes h).erase n := by
  rw [ownedNodes, ownedNodes, (hnd.filter _).erase_eq_filter, List.filterMap_append,
    List.filter_filter]
  simp only [List.mem_append, List.mem_singleton, NodeEvent.removed.injEq, not_or,
    List.filterMap_cons, NodeEvent.added?, List.filterMap_nil, List.append_nil]
  congr 1
  funext x
  by_cases hx : x = n <;> simp [hx]

namespace Arena

variable {L : Type}

/-! ## Lookup in the node store -/

theorem findNode_le (s : Arena L) (m : NodeId) : s.findNode m ≤ s.nodes.length :=
  List.findIdx_le_length _

theorem findNode_lt_iff {s : Arena L} {m : NodeId} :
    s.findNode m < s.nodes.length ↔ m ∈ s.nodes := by
  simp [findNode, List.findIdx_lt_length]

theorem hasNode_iff {s : Arena L} {m : NodeId} : s.hasNode m = true ↔ m ∈ s.nodes := by
  have := s.findNode_le m
  rw [hasNode, bne_iff_ne, ← findNode_lt_iff]
  omega

/-- `findNode(N)` points at a node only when it points at `N`, and it does when `N` is listed. -/
theorem getElem?_findNode {s : Arena L} {m n : NodeId} :
    s.nodes[s.findNode m]? = some n ↔ n = m ∧ m ∈ s.nodes := by
  by_cases hm : m ∈ s.nodes
  · have hlt := findNode_lt_iff.2 hm
    have hget : s.nodes[s.findNode m] = m := by
      simpa [findNode] using List.findIdx_getElem (w := hlt)
    simp [List.getElem?_eq_getElem hlt, hget, hm, eq_comm]
  · have hge : s.nodes.length ≤ s.findNode m := Nat.not_lt.1 (mt findNode_lt_iff.1 hm)
    simp [List.getElem?_eq_none hge, hm]

theorem eraseIdx_findNode (s : Arena L) (m : NodeId) :
    s.nodes.eraseIdx (s.findNode m) = s.nodes.erase m :=
  List.eraseIdx_indexOf_eq_erase m s.nodes

/-! ## Frames of the node store -/

/-- `s'` has the node store of `s`: only edges and labels may differ. -/
structure SameNodes (s s' : Arena L) : Prop where
  parent : s'.parent = s.parent
  live : s'.live = s.live
  nextNode : s'.nextNode = s.nextNode
  nodes : s'.nodes = s.nodes
  entryNode : s'.entryNode = s.entryNode

theorem EdgesOnly.sameNodes {s s' : Arena L} (hf : EdgesOnly s s') : SameNodes s s' :=
  ⟨hf.parent, hf.live, hf.nextNode, hf.nodes, hf.entryNode⟩

theorem addSuccessor_sameNodes (s : Arena L) (a b : NodeId) (el : L) :
    SameNodes s (s.addSuccessor a b el).2 := by
  unfold addSuccessor
  split <;> exact ⟨rfl, rfl, rfl, rfl, rfl⟩

theorem addPredecessor_sameNodes (s : Arena L) (a b : NodeId) (el : L) :
    SameNodes s (s.addPredecessor a b el).2 := by
  unfold addPredecessor
  split <;> exact ⟨rfl, rfl, rfl, rfl, rfl⟩

theorem SameNodes.eraseNode {s s₁ : Arena L} (hf : SameNodes s s₁) (k : Nat) (n : NodeId) :
    SameNodes (s.eraseNode k n) (s₁.eraseNode k n) :=
  ⟨hf.parent, by rw [live_eraseNode, live_eraseNode, hf.live], hf.nextNode,
    by rw [nodes_eraseNode, nodes_eraseNode, hf.nodes], hf.entryNode⟩

/-! ## The node store against the history -/

/-- The node store of an arena reached through the events `h`: `nodes()` is `ownedNodes h`, each
    node is added at most once, addresses come from the allocation counter, listed nodes are live
    and have the graph as parent, removed nodes are destroyed, and the entry node is listed or was
    removed. -/
structure NodeStore (s : Arena L) (h : List NodeEvent) : Prop where
  nodes_eq : s.nodes = ownedNodes h
  added_nodup : (h.filterMap NodeEvent.added?).Nodup
  event_lt : ∀ e ∈ h, e.node < s.nextNode
  live_lt : ∀ n, s.live n = true → n < s.nextNode
  live_of_mem : ∀ n ∈ s.nodes, s.live n = true
  dead_of_removed : ∀ n, NodeEvent.removed n ∈ h → s.live n = false
  parent_of_mem : ∀ n ∈ s.nodes, s.parent n = true
  entry : ∀ n, s.entryNode = some n → n ∈ s.nodes ∨ NodeEvent.removed n ∈ h

namespace NodeStore

variable {s s' : Arena L} {h : List NodeEvent}

theorem empty : NodeStore (Arena.empty : Arena L) [] where
  nodes_eq := rfl
  added_nodup := List.nodup_nil
  event_lt := by simp
  live_lt := by simp [Arena.empty]
  live_of_mem := by simp [Arena.empty]
  dead_of_removed := by simp
  parent_of_mem := by simp [Arena.empty]
  entry := by simp [Arena.empty]

theorem of_sameNodes (hn : NodeStore s h) (hf : SameNodes s s') : NodeStore s' h where
  nodes_eq := hf.nodes ▸ hn.nodes_eq
  added_nodup := hn.added_nodup
  event_lt := hf.nextNode ▸ hn.event_lt
  live_lt := hf.live ▸ hf.nextNode ▸ hn.live_lt
  live_of_mem := hf.live ▸ hf.nodes ▸ hn.live_of_mem
  dead_of_removed := hf.live ▸ hn.dead_of_removed
  parent_of_mem := hf.parent ▸ hf.nodes ▸ hn.parent_of_mem
  entry := hf.entryNode ▸ hf.nodes ▸ hn.entry

theorem nodup (hn : NodeStore s h) : s.nodes.Nodup :=
  hn.nodes_eq ▸ hn.added_nodup.filter _

theorem lt_of_mem (hn : NodeStore s h) {n : NodeId} (hm : n ∈ s.nodes) : n < s.nextNode :=
  hn.live_lt n (hn.live_of_mem n hm)

theorem live_nextNode (hn : NodeStore s h) : s.live s.nextNode = false :=
  Bool.eq_false_iff.2 fun hl => Nat.lt_irrefl _ (hn.live_lt _ hl)

/-- Allocating a node touches nothing the store lists: its address is past every event. -/
theorem makeNode (hn : NodeStore s h) (init : NodeInit) : NodeStore (s.makeNode init).2 h where
  nodes_eq := hn.nodes_eq
  added_nodup := hn.added_nodup
  event_lt e he := Nat.lt_succ_of_lt (hn.event_lt e he)
  live_lt n hl := by
    rw [live_makeNode, Function.update_apply] at hl
    split_ifs at hl with hx
    · simp [hx]
    · exact Nat.lt_succ_of_lt (hn.live_lt n hl)
  live_of_mem n hm := by simp [Function.update_apply, hn.live_of_mem n hm]
  dead_of_removed n hr := by
    have hlt : n < s.nextNode := by simpa using hn.event_lt _ hr
    rw [live_makeNode, Function.update_noteq hlt.ne]
    exact hn.dead_of_removed n hr
  parent_of_mem n hm := by
    rw [parent_makeNode_of_ne _ _ (hn.lt_of_mem hm).ne]
    exact hn.parent_of_mem n hm
  entry := hn.entry

theorem addNode (hn : NodeStore s h) {n : NodeId} (hl : s.live n = true) (hm : n ∉ s.nodes) :
    NodeStore (s.addNode n).2 (h ++ [.added n]) := by
  have hr : NodeEvent.removed n ∉ h := fun hr => by simp [hn.dead_of_removed n hr] at hl
  have ha : NodeEvent.added n ∉ h := fun ha =>
    hm (hn.nodes_eq ▸ mem_ownedNodes.2 ⟨ha, hr⟩)
  refine ⟨by rw [nodes_addNode, hn.nodes_eq, ownedNodes_added hr], ?_, ?_, hn.live_lt, ?_, ?_, ?_, ?_⟩
  · simpa [List.filterMap_append, NodeEvent.added?, List.nodup_append, hn.added_nodup,
      List.mem_filterMap] using fun e he hen => ha (by cases e <;> simp_all [NodeEvent.added?])
  · simp only [List.mem_append, List.mem_singleton, nextNode_addNode]
    rintro e (he | rfl)
    · exact hn.event_lt e he
    · exact hn.live_lt n hl
  · simp only [nodes_addNode, live_addNode, List.mem_append, List.mem_singleton]
    rintro x (hx | rfl)
    · exact hn.live_of_mem x hx
    · exact hl
  · simpa using hn.dead_of_removed
  · simp only [parent_addNode, nodes_addNode, List.mem_append, List.mem_singleton]
    rintro x (hx | rfl)
    · have hxn : x ≠ n := fun e => hm (e ▸ hx)
      simp [Function.update_noteq hxn, hn.parent_of_mem x hx]
    · simp
  · intro x hx
    rcases hn.entry x hx with hx | hx
    · exact .inl (List.mem_append_left _ hx)
    · exact .inr (List.mem_append_left _ hx)

theorem setEntryNode (hn : NodeStore s h) {n : NodeId} (hm : n ∈ s.nodes) :
    NodeStore (s.setEntryNode (some n)) h :=
  { hn with entry := fun x hx => .inl (by cases hx; exact hm) }

/-- Erasing the node at position `k` records its removal. -/
theorem eraseNode (hn : NodeStore s h) {k : Nat} {n : NodeId} (hk : s.nodes[k]? = some n) :
    NodeStore (s.eraseNode k n) (h ++ [.removed n]) := by
  obtain ⟨hlt, hkn⟩ := List.getElem?_eq_some_iff.1 hk
  have herase : (s.eraseNode k n).nodes = s.nodes.erase n := by
    rw [nodes_eraseNode, ← hkn, hn.nodup.erase_getElem k hlt]
  have hmem : n ∈ s.nodes := hkn ▸ List.getElem_mem hlt
  refine ⟨?_, by simpa [List.filterMap_append, NodeEvent.added?] using hn.added_nodup, ?_, ?_, ?_,
    ?_, ?_, ?_⟩
  · rw [herase, hn.nodes_eq, ownedNodes_removed hn.added_nodup]
  · simp only [List.mem_append, List.mem_singleton, nextNode_eraseNode]
    rintro e (he | rfl)
    · exact hn.event_lt e he
    · exact hn.lt_of_mem hmem
  · intro x hx
    rw [live_eraseNode, Function.update_apply] at hx
    split_ifs at hx
    exact hn.live_lt x hx
  · intro x hx
    rw [herase] at hx
    rw [live_eraseNode, Function.update_noteq (hn.nodup.mem_erase_iff.1 hx).1]
    exact hn.live_of_mem x (List.mem_of_mem_erase hx)
  · intro x hx
    rw [live_eraseNode, Function.update_apply]
    split_ifs with hxn
    · rfl
    · exact hn.dead_of_removed x (by simpa [hxn] using hx)
  · intro x hx
    rw [herase] at hx
    exact hn.parent_of_mem x (List.mem_of_mem_erase hx)
  · intro x hx
    rw [herase, hn.nodup.mem_erase_iff]
    by_cases hxn : x = n
    · simp [hxn]
    · simpa [hxn] using hn.entry x hx

end NodeStore

/-! ## Removing an absent node -/

/-- `removeNode` of a node that is not listed dereferences the `end()` of `Nodes`. -/
theorem removeNode_of_not_mem {s : Arena L} {m : NodeId} (hm : m ∉ s.nodes) (fuel : Nat) :
    s.removeNode m fuel = some (.error .outOfRange, s) := by
  have hge : s.nodes.length ≤ s.findNode m := Nat.not_lt.1 (mt findNode_lt_iff.1 hm)
  simp [removeNode, removeNodeAt, List.getElem?_eq_none hge]

/-- `removeNode(N)` on the chain `A → B → C` for a pointer `N = 5` the graph does not own: `findNode`
    returns `end()`, position `3`, and `removeNode` dereferences it whatever the fuel. -/
theorem removeNode_absent_reads_end :
    5 ∉ chainABC.nodes ∧ chainABC.findNode 5 = chainABC.nodes.length ∧
    ∀ fuel, chainABC.removeNode 5 fuel = some (.error .outOfRange, chainABC) :=
  ⟨by decide, by decide, removeNode_of_not_mem (by decide)⟩

end Arena

end Revng
