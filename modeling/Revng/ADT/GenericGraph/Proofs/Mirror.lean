import Revng.ADT.GenericGraph.GenericGraph
import Mathlib.Data.List.Perm.Subperm

set_option autoImplicit false

/-! # The mirror layout of `MutableEdgeNode`

`MutableEdgeNode` promises that an edge is always present by both of its halves: the owner `(b, l)`
in `a`'s successors and the view `(a, l)` in `b`'s predecessors, sharing the one label allocation
`l`, with at most one edge per ordered pair of nodes. `Arena.Mirror` states that layout.

This file proves what each edge operation does to a mirrored arena: `addSuccessor` and
`addPredecessor` are the same call (`addPredecessor_eq_addSuccessor`), and `removeImpl` removes one
edge, both halves, and nothing else (`mem_edges_removeImpl`). Each keeps the layout. The abstract
view is the edge relation `IsEdge`, read off the successor lists. -/

namespace Revng

namespace Arena

variable {L : Type} {s : Arena L}

/-! ## Frames -/

/-- `s'` differs from `s` in the edge lists only. -/
structure EdgesOnly (s s' : Arena L) : Prop where
  parent : s'.parent = s.parent
  live : s'.live = s.live
  nextNode : s'.nextNode = s.nextNode
  labels : s'.labels = s.labels
  nodes : s'.nodes = s.nodes
  entryNode : s'.entryNode = s.entryNode

theorem EdgesOnly.refl (s : Arena L) : EdgesOnly s s := ⟨rfl, rfl, rfl, rfl, rfl, rfl⟩

theorem EdgesOnly.trans {s₁ s₂ s₃ : Arena L} (h₁ : EdgesOnly s₁ s₂) (h₂ : EdgesOnly s₂ s₃) :
    EdgesOnly s₁ s₃ :=
  ⟨h₂.parent.trans h₁.parent, h₂.live.trans h₁.live, h₂.nextNode.trans h₁.nextNode,
    h₂.labels.trans h₁.labels, h₂.nodes.trans h₁.nodes, h₂.entryNode.trans h₁.entryNode⟩

theorem EdgesOnly.setEdges (s : Arena L) (d : Dir) (n : NodeId) (l : List HalfEdge) :
    EdgesOnly s (s.setEdges d n l) := ⟨rfl, rfl, rfl, rfl, rfl, rfl⟩

theorem removeImpl_edgesOnly (s : Arena L) (d : Dir) (n : NodeId) (i : Nat) :
    EdgesOnly s (s.removeImpl d n i).2 := by
  unfold removeImpl
  split
  · exact .refl s
  split
  · exact .refl s
  dsimp only
  split
  · exact .refl s
  split
  · exact .refl s
  exact (EdgesOnly.setEdges ..).trans (EdgesOnly.setEdges ..)

/-! ## Lookup -/

theorem findImpl_le (s : Arena L) (d : Dir) (n m : NodeId) :
    s.findImpl d n m ≤ (s.edges d n).length :=
  List.findIdx_le_length _

theorem findImpl_lt_iff {d : Dir} {n m : NodeId} :
    s.findImpl d n m < (s.edges d n).length ↔ ∃ e ∈ s.edges d n, e.neighbor = m := by
  simp [findImpl, List.findIdx_lt_length]

theorem has_iff {d : Dir} {n m : NodeId} :
    s.has d n m = true ↔ ∃ e ∈ s.edges d n, e.neighbor = m := by
  have := s.findImpl_le d n m
  rw [has, bne_iff_ne, ← findImpl_lt_iff]
  omega

theorem neighbor_findImpl {d : Dir} {n m : NodeId} (h : s.findImpl d n m < (s.edges d n).length) :
    (s.edges d n)[s.findImpl d n m].neighbor = m := by
  simpa [findImpl] using List.findIdx_getElem (w := h)

/-- In a list naming each neighbour once, the search for the neighbour at `i` finds `i`. -/
theorem findImpl_eq {d : Dir} {n : NodeId} {i : Nat}
    (hnd : ((s.edges d n).map HalfEdge.neighbor).Nodup) (hi : i < (s.edges d n).length) :
    s.findImpl d n (s.edges d n)[i].neighbor = i := by
  have hlt : s.findImpl d n (s.edges d n)[i].neighbor < (s.edges d n).length :=
    findImpl_lt_iff.2 ⟨_, List.getElem_mem hi, rfl⟩
  have hj : s.findImpl d n (s.edges d n)[i].neighbor < ((s.edges d n).map HalfEdge.neighbor).length
    := by simpa using hlt
  have hi' : i < ((s.edges d n).map HalfEdge.neighbor).length := by simpa using hi
  have key : ((s.edges d n).map HalfEdge.neighbor)[s.findImpl d n (s.edges d n)[i].neighbor]
      = ((s.edges d n).map HalfEdge.neighbor)[i] := by simp [neighbor_findImpl hlt]
  exact hnd.getElem_inj_iff.1 key

/-! ## The layout -/

/-- The edge `a → b` whose label is the allocation `l`: its owner is in `a`'s successors. -/
def IsEdge (s : Arena L) (a b : NodeId) (l : LabelRef) : Prop := ⟨b, l⟩ ∈ s.successors a

/-- The layout of a graph of `MutableEdgeNode`s: (a) a list names each neighbour at most once,
    and an owner is in a successor list exactly when its view is in the neighbour's predecessor
    list, (b) with the same allocation; (c) an allocation has one owner and is on the heap;
    (d) only live nodes have edges, and only to live nodes. -/
structure Mirror (s : Arena L) : Prop where
  nodup : ∀ d n, ((s.edges d n).map HalfEdge.neighbor).Nodup
  mirror : ∀ n m l, (⟨m, l⟩ : HalfEdge) ∈ s.edges .succ n ↔ ⟨n, l⟩ ∈ s.edges .pred m
  owner_unique : ∀ n n' e e', e ∈ s.edges .succ n → e' ∈ s.edges .succ n' →
    e.label = e'.label → n = n' ∧ e = e'
  label_lt : ∀ n e, e ∈ s.edges .succ n → e.label < s.labels.length
  live : ∀ d n e, e ∈ s.edges d n → s.live n ∧ s.live e.neighbor

theorem Mirror.mem_flip (hs : s.Mirror) {d : Dir} {n m : NodeId} {l : LabelRef} :
    (⟨m, l⟩ : HalfEdge) ∈ s.edges d n ↔ ⟨n, l⟩ ∈ s.edges d.flip m := by
  cases d
  · exact hs.mirror n m l
  · exact (hs.mirror m n l).symm

/-- Every half, owner or view, names an allocation on the heap. -/
theorem Mirror.label_lt_of_mem (hs : s.Mirror) {d : Dir} {n : NodeId} {e : HalfEdge}
    (he : e ∈ s.edges d n) : e.label < s.labels.length := by
  cases d
  · exact hs.label_lt n e he
  · exact hs.label_lt e.neighbor ⟨n, e.label⟩ (hs.mirror _ _ _ |>.2 he)

theorem Mirror.has_flip (hs : s.Mirror) {d : Dir} {n m : NodeId} :
    s.has d n m = true ↔ s.has d.flip m n = true := by
  simp only [Arena.has_iff]
  constructor <;> rintro ⟨⟨x, l⟩, he, rfl⟩
  · exact ⟨⟨n, l⟩, hs.mem_flip.1 he, rfl⟩
  · exact ⟨⟨m, l⟩, by simpa using hs.mem_flip.1 he, rfl⟩

/-! ## Node operations -/

theorem Mirror.empty : (Arena.empty : Arena L).Mirror where
  nodup _ _ := List.nodup_nil
  mirror := by simp [Arena.empty]
  owner_unique := by simp [Arena.empty]
  label_lt := by simp [Arena.empty]
  live := by simp [Arena.empty]

/-- The layout reads the edge lists, the label heap and liveness only. -/
theorem Mirror.of_edges_eq {s' : Arena L} (hs : s.Mirror) (he : s'.edges = s.edges)
    (hl : s'.labels = s.labels) (hlive : ∀ d n e, e ∈ s.edges d n → s'.live n ∧ s'.live e.neighbor) :
    s'.Mirror where
  nodup := he ▸ hs.nodup
  mirror := he ▸ hs.mirror
  owner_unique := he ▸ hs.owner_unique
  label_lt := he ▸ hl ▸ hs.label_lt
  live := he ▸ hlive

/-- A node allocated at a never-used address starts without edges, and nothing names it. -/
theorem Mirror.makeNode (hs : s.Mirror) (hnext : s.live s.nextNode = false) :
    (s.makeNode .fresh).2.Mirror := by
  refine hs.of_edges_eq (funext fun d => funext fun x => ?_) rfl fun d n e he => ?_
  · rw [edges_makeNode_fresh]
    split_ifs with hx
    · subst hx
      exact (List.eq_nil_iff_forall_not_mem.2 fun e he => by
        simpa [hnext] using (hs.live d _ e he).1).symm
    · rfl
  · obtain ⟨hn, hm⟩ := hs.live d n e he
    simp [Function.update_apply, hn, hm]

theorem Mirror.addNode (hs : s.Mirror) (n : NodeId) : (s.addNode n).2.Mirror :=
  hs.of_edges_eq rfl rfl fun d n e he => hs.live d n e he

theorem Mirror.setEntryNode (hs : s.Mirror) (n : Option NodeId) : (s.setEntryNode n).Mirror :=
  hs.of_edges_eq rfl rfl fun d n e he => hs.live d n e he

/-! ## Adding an edge -/

@[simp] theorem emplaceEdge_fst (s : Arena L) (a b : NodeId) (el : L) :
    (s.emplaceEdge a b el).1 = (⟨b, s.labels.length⟩ : HalfEdge) := rfl
@[simp] theorem labels_emplaceEdge (s : Arena L) (a b : NodeId) (el : L) :
    (s.emplaceEdge a b el).2.labels = s.labels ++ [el] := rfl
@[simp] theorem parent_emplaceEdge (s : Arena L) (a b : NodeId) (el : L) :
    (s.emplaceEdge a b el).2.parent = s.parent := rfl
@[simp] theorem live_emplaceEdge (s : Arena L) (a b : NodeId) (el : L) :
    (s.emplaceEdge a b el).2.live = s.live := rfl
@[simp] theorem nextNode_emplaceEdge (s : Arena L) (a b : NodeId) (el : L) :
    (s.emplaceEdge a b el).2.nextNode = s.nextNode := rfl
@[simp] theorem nodes_emplaceEdge (s : Arena L) (a b : NodeId) (el : L) :
    (s.emplaceEdge a b el).2.nodes = s.nodes := rfl
@[simp] theorem entryNode_emplaceEdge (s : Arena L) (a b : NodeId) (el : L) :
    (s.emplaceEdge a b el).2.entryNode = s.entryNode := rfl

/-- The new edge's state, spelled out: the label pushed on the heap, the owner appended to `a`'s
    successors, the view to `b`'s predecessors. -/
theorem emplaceEdge_snd (s : Arena L) (a b : NodeId) (el : L) :
    (s.emplaceEdge a b el).2 = (({ s with labels := s.labels ++ [el] }.setEdges .succ a
      (s.successors a ++ [(⟨b, s.labels.length⟩ : HalfEdge)])).setEdges .pred b
      (s.predecessors b ++ [(⟨a, s.labels.length⟩ : HalfEdge)])) := by
  simp [emplaceEdge, constructEdge, setEdges]

theorem edges_emplaceEdge (s : Arena L) (a b : NodeId) (el : L) (d : Dir) (x : NodeId) :
    (s.emplaceEdge a b el).2.edges d x = s.edges d x ++
      if d = .succ ∧ x = a then [(⟨b, s.labels.length⟩ : HalfEdge)]
      else if d = .pred ∧ x = b then [(⟨a, s.labels.length⟩ : HalfEdge)] else [] := by
  rw [emplaceEdge_snd]
  simp only [edges_setEdges, successors_eq, predecessors_eq]
  split_ifs <;> simp_all

theorem mem_edges_emplaceEdge (s : Arena L) (a b : NodeId) (el : L) (d : Dir) (x : NodeId)
    (e : HalfEdge) : e ∈ (s.emplaceEdge a b el).2.edges d x ↔ e ∈ s.edges d x ∨
      (d = .succ ∧ x = a ∧ e = (⟨b, s.labels.length⟩ : HalfEdge)) ∨
      (d = .pred ∧ x = b ∧ e = (⟨a, s.labels.length⟩ : HalfEdge)) := by
  rw [edges_emplaceEdge]
  split_ifs with h₁ h₂ <;> simp_all

theorem mem_successors_emplaceEdge (s : Arena L) (a b : NodeId) (el : L) (x : NodeId)
    (e : HalfEdge) : e ∈ (s.emplaceEdge a b el).2.edges .succ x ↔ e ∈ s.edges .succ x ∨
      (x = a ∧ e = (⟨b, s.labels.length⟩ : HalfEdge)) := by
  simp [mem_edges_emplaceEdge]

theorem Mirror.emplaceEdge (hs : s.Mirror) {a b : NodeId} (hab : s.hasSuccessor a b = false)
    (ha : s.live a) (hb : s.live b) (el : L) : (s.emplaceEdge a b el).2.Mirror := by
  have hab' : ∀ e ∈ s.edges .succ a, e.neighbor ≠ b := fun e he hn =>
    absurd (Arena.has_iff.2 ⟨e, he, hn⟩) (by simpa [hasSuccessor] using hab)
  have hba : ∀ e ∈ s.edges .pred b, e.neighbor ≠ a := by
    rintro ⟨x, l⟩ he (rfl : x = a)
    exact hab' ⟨b, l⟩ (hs.mirror _ _ _ |>.2 he) rfl
  have hnew : ∀ d n e, e ∈ s.edges d n → e.label ≠ s.labels.length :=
    fun _ _ _ he => (hs.label_lt_of_mem he).ne
  constructor
  · intro d x
    rw [edges_emplaceEdge]
    split_ifs with h₁ h₂
    · obtain ⟨rfl, rfl⟩ := h₁
      simpa [List.nodup_append, hs.nodup] using hab'
    · obtain ⟨rfl, rfl⟩ := h₂
      simpa [List.nodup_append, hs.nodup] using hba
    · simpa using hs.nodup d x
  · intro n m l
    simp only [mem_edges_emplaceEdge, hs.mirror n m l]
    aesop
  · intro n n' e e' he he' hl
    rw [mem_successors_emplaceEdge] at he he'
    rcases he with he | ⟨rfl, rfl⟩ <;> rcases he' with he' | ⟨rfl, rfl⟩
    · exact hs.owner_unique _ _ _ _ he he' hl
    · exact (hnew _ _ _ he hl).elim
    · exact (hnew _ _ _ he' hl.symm).elim
    · exact ⟨rfl, rfl⟩
  · intro n e he
    rcases (mem_successors_emplaceEdge ..).1 he with he | ⟨-, rfl⟩
    · simpa using Nat.lt_succ_of_lt (hs.label_lt n e he)
    · simp
  · intro d n e he
    rw [mem_edges_emplaceEdge] at he
    rcases he with he | ⟨-, rfl, rfl⟩ | ⟨-, rfl, rfl⟩
    · simpa using hs.live d n e he
    · exact ⟨ha, hb⟩
    · exact ⟨hb, ha⟩

theorem hasSuccessor_iff {a b : NodeId} : s.hasSuccessor a b = true ↔ ∃ l, s.IsEdge a b l := by
  simp only [hasSuccessor, Arena.has_iff, IsEdge, successors_eq]
  constructor
  · rintro ⟨⟨x, l⟩, he, rfl⟩
    exact ⟨l, he⟩
  · rintro ⟨l, he⟩
    exact ⟨_, he, rfl⟩

theorem Mirror.hasPredecessor_eq (hs : s.Mirror) (a b : NodeId) :
    s.hasPredecessor b a = s.hasSuccessor a b :=
  Bool.eq_iff_iff.2 (hs.has_flip (d := .pred))

theorem addSuccessor_of_hasSuccessor {a b : NodeId} (h : s.hasSuccessor a b = true) (el : L) :
    s.addSuccessor a b el = (.error (.assertion onlyOneEdge), s) := by
  simp [addSuccessor, h]

theorem addSuccessor_of_not_hasSuccessor {a b : NodeId} (h : s.hasSuccessor a b = false) (el : L) :
    s.addSuccessor a b el = (.ok ⟨b, s.labels.length⟩, (s.emplaceEdge a b el).2) := by
  simp [addSuccessor, h]

/-- `B.addPredecessor(A, L)` is `A.addSuccessor(B, L)`: the duplicate checks look at different
    lists but agree on a mirrored arena, and past them both run the same body. -/
theorem Mirror.addPredecessor_eq (hs : s.Mirror) (a b : NodeId) (el : L) :
    s.addPredecessor b a el = s.addSuccessor a b el := by
  simp only [addPredecessor, addSuccessor, hs.hasPredecessor_eq]

theorem Mirror.addSuccessor (hs : s.Mirror) {a b : NodeId} (ha : s.live a) (hb : s.live b)
    (el : L) : (s.addSuccessor a b el).2.Mirror := by
  cases h : s.hasSuccessor a b
  · simpa [addSuccessor_of_not_hasSuccessor h] using hs.emplaceEdge h ha hb el
  · simpa [addSuccessor_of_hasSuccessor h] using hs

/-- The chain `A → B → C`: nodes `A = 0`, `B = 1`, `C = 2` added to a graph, then
    `A.addSuccessor(B)` and `B.addSuccessor(C)`. -/
def chainABC : Arena Unit :=
  let s := (((Arena.empty.addNodeArgs .fresh).2.addNodeArgs .fresh).2.addNodeArgs .fresh).2
  ((s.addSuccessor 0 1 ()).2.addSuccessor 1 2 ()).2

theorem Mirror.chainABC : chainABC.Mirror :=
  let h₃ := ((((Mirror.empty.makeNode rfl).addNode _).makeNode rfl).addNode _ |>.makeNode rfl).addNode _
  (h₃.addSuccessor (a := 0) (b := 1) (by decide) (by decide) ()).addSuccessor (by decide) (by decide) ()

theorem addPredecessor_eq_addSuccessor (hs : s.Mirror) (a b : NodeId) (el : L) :
    s.addPredecessor b a el = s.addSuccessor a b el ∧
    ((∃ l, s.IsEdge a b l) → s.addSuccessor a b el = (.error (.assertion onlyOneEdge), s)) ∧
    ((¬∃ l, s.IsEdge a b l) → ∃ s', s.addSuccessor a b el = (.ok ⟨b, s.labels.length⟩, s') ∧
      s'.edges .succ a = s.edges .succ a ++ [⟨b, s.labels.length⟩] ∧
      s'.edges .pred b = s.edges .pred b ++ [⟨a, s.labels.length⟩] ∧
      (∀ d x, (d = .succ → x ≠ a) → (d = .pred → x ≠ b) → s'.edges d x = s.edges d x) ∧
      s'.labels = s.labels ++ [el] ∧ s'.parent = s.parent ∧ s'.live = s.live ∧
      s'.nextNode = s.nextNode ∧ s'.nodes = s.nodes ∧ s'.entryNode = s.entryNode) ∧
    (∀ d n e, e ∈ s.edges d n → e.label ≠ s.labels.length) := by
  refine ⟨hs.addPredecessor_eq a b el, fun h => ?_, fun h => ?_,
    fun _ _ _ he => (hs.label_lt_of_mem he).ne⟩
  · exact addSuccessor_of_hasSuccessor (hasSuccessor_iff.2 h) el
  · refine ⟨_, addSuccessor_of_not_hasSuccessor (Bool.eq_false_iff.2 (h ∘ hasSuccessor_iff.1)) el,
      by simp [edges_emplaceEdge], by simp [edges_emplaceEdge], fun d x ha hb => ?_,
      rfl, rfl, rfl, rfl, rfl, rfl⟩
    rw [edges_emplaceEdge, if_neg fun h => ha h.1 h.2, if_neg fun h => hb h.1 h.2, List.append_nil]

theorem addPredecessor_eq_addSuccessor_chainABC :
    chainABC.Mirror ∧ (chainABC.addPredecessor 2 0 () = chainABC.addSuccessor 0 2 () ∧
    ((∃ l, chainABC.IsEdge 0 2 l) →
      chainABC.addSuccessor 0 2 () = (.error (.assertion onlyOneEdge), chainABC)) ∧
    ((¬∃ l, chainABC.IsEdge 0 2 l) → ∃ s',
      chainABC.addSuccessor 0 2 () = (.ok ⟨2, chainABC.labels.length⟩, s') ∧
      s'.edges .succ 0 = chainABC.edges .succ 0 ++ [⟨2, chainABC.labels.length⟩] ∧
      s'.edges .pred 2 = chainABC.edges .pred 2 ++ [⟨0, chainABC.labels.length⟩] ∧
      (∀ d x, (d = .succ → x ≠ 0) → (d = .pred → x ≠ 2) → s'.edges d x = chainABC.edges d x) ∧
      s'.labels = chainABC.labels ++ [()] ∧ s'.parent = chainABC.parent ∧
      s'.live = chainABC.live ∧ s'.nextNode = chainABC.nextNode ∧ s'.nodes = chainABC.nodes ∧
      s'.entryNode = chainABC.entryNode) ∧
    (∀ d n e, e ∈ chainABC.edges d n → e.label ≠ chainABC.labels.length)) :=
  ⟨Mirror.chainABC, addPredecessor_eq_addSuccessor Mirror.chainABC 0 2 ()⟩

/-! ## Removing an edge -/

/-- The swap of two writes to different lists. -/
theorem setEdges_comm (s : Arena L) {d d' : Dir} (h : d ≠ d') (n m : NodeId)
    (l l' : List HalfEdge) :
    (s.setEdges d n l).setEdges d' m l' = (s.setEdges d' m l').setEdges d n l := by
  simp only [setEdges, Function.update_noteq h, Function.update_noteq h.symm]
  rw [Function.update_comm h]

/-- On a mirrored arena the mirror of the half at `i` is found on the far list. -/
theorem Mirror.findImpl_flip_lt (hs : s.Mirror) {d : Dir} {n : NodeId} {i : Nat}
    (hi : i < (s.edges d n).length) :
    s.findImpl d.flip (s.edges d n)[i].neighbor n
      < (s.edges d.flip (s.edges d n)[i].neighbor).length :=
  findImpl_lt_iff.2 ⟨_, hs.mem_flip.1 (List.getElem_mem hi), rfl⟩

/-- On a mirrored arena `removeImpl` passes both of its checks and its assertion, and swap-and-pops
    the half at `i` and its mirror. -/
theorem removeImpl_of_mirror (hs : s.Mirror) {d : Dir} {n : NodeId} {i : Nat}
    (hi : i < (s.edges d n).length) :
    s.removeImpl d n i = (.ok i,
      (s.setEdges d.flip (s.edges d n)[i].neighbor
        (swapPop (s.edges d.flip (s.edges d n)[i].neighbor)
          (s.findImpl d.flip (s.edges d n)[i].neighbor n))).setEdges d n
        (swapPop (s.edges d n) i)) := by
  have hj := hs.findImpl_flip_lt hi
  have hne : s.edges d n ≠ [] := List.ne_nil_of_length_pos (by omega)
  have hfar : s.edges d.flip (s.edges d n)[i].neighbor ≠ [] :=
    List.ne_nil_of_length_pos (by omega)
  simp only [removeImpl, hne, hfar, hj.ne, List.getElem?_eq_getElem hi, if_false, edges_setEdges,
    Dir.ne_flip, false_and]

/-- What `removeImpl` removes from a mirrored arena: the half at `i`, naming `m`, and the half
    naming `n` on `m`'s other list. Nothing else. -/
theorem mem_edges_removeImpl (hs : s.Mirror) {d : Dir} {n : NodeId} {i : Nat}
    (hi : i < (s.edges d n).length) (d' : Dir) (x : NodeId) (e : HalfEdge) :
    e ∈ (s.removeImpl d n i).2.edges d' x ↔ e ∈ s.edges d' x ∧
      ¬((d' = d ∧ x = n ∧ e.neighbor = (s.edges d n)[i].neighbor) ∨
        (d' = d.flip ∧ x = (s.edges d n)[i].neighbor ∧ e.neighbor = n)) := by
  have hj := hs.findImpl_flip_lt hi
  rw [removeImpl_of_mirror hs hi]
  simp only [edges_setEdges]
  split_ifs with h₁ h₂
  · obtain ⟨rfl, rfl⟩ := h₁
    simp [mem_swapPop_iff HalfEdge.neighbor _ hi (hs.nodup _ _)]
  · obtain ⟨rfl, rfl⟩ := h₂
    simp [mem_swapPop_iff HalfEdge.neighbor _ hj (hs.nodup _ _), neighbor_findImpl hj]
  · simp only [not_and] at h₁ h₂
    constructor
    · exact fun he => ⟨he, by rintro (⟨rfl, rfl, -⟩ | ⟨rfl, rfl, -⟩) <;> simp_all⟩
    · exact And.left

theorem Mirror.removeImpl (hs : s.Mirror) {d : Dir} {n : NodeId} {i : Nat}
    (hi : i < (s.edges d n).length) : (s.removeImpl d n i).2.Mirror := by
  have hmem := mem_edges_removeImpl hs hi
  have hold : ∀ d' x e, e ∈ (s.removeImpl d n i).2.edges d' x → e ∈ s.edges d' x :=
    fun d' x e he => ((hmem d' x e).1 he).1
  have hfr := removeImpl_edgesOnly s d n i
  constructor
  · intro d' x
    have hj := hs.findImpl_flip_lt hi
    rw [removeImpl_of_mirror hs hi]
    simp only [edges_setEdges]
    split_ifs with h₁ h₂
    · obtain ⟨rfl, rfl⟩ := h₁
      exact nodup_map_swapPop _ _ hi (hs.nodup _ _)
    · obtain ⟨rfl, rfl⟩ := h₂
      exact nodup_map_swapPop _ _ hj (hs.nodup _ _)
    · exact hs.nodup d' x
  · intro x y l
    rw [hmem, hmem, hs.mirror x y l]
    cases d <;> simp only [Dir.flip] <;> constructor <;> rintro ⟨he, hn⟩ <;>
      exact ⟨he, fun h => hn (by simp at h ⊢; tauto)⟩
  · exact fun x x' e e' he he' => hs.owner_unique x x' e e' (hold _ _ _ he) (hold _ _ _ he')
  · exact fun x e he => hfr.labels ▸ hs.label_lt x e (hold _ _ _ he)
  · exact fun d' x e he => hfr.live ▸ hs.live d' x e (hold _ _ _ he)

theorem edges_removeImpl_self (hs : s.Mirror) {d : Dir} {n : NodeId} {i : Nat}
    (hi : i < (s.edges d n).length) :
    (s.removeImpl d n i).2.edges d n = swapPop (s.edges d n) i := by
  simp [removeImpl_of_mirror hs hi]

/-- Removing the half at `i` by position or by its neighbour is the same call; the result points
    at `i`, the halves before `i` stay, those after it are reordered. -/
theorem removeImpl_spec (hs : s.Mirror) {d : Dir} {n : NodeId} {i : Nat}
    (hi : i < (s.edges d n).length) :
    (s.removeImpl d n i).1 = .ok i ∧
    s.removeImpl d n (s.findImpl d n (s.edges d n)[i].neighbor) = s.removeImpl d n i ∧
    ((s.removeImpl d n i).2.edges d n).take i = (s.edges d n).take i ∧
    (((s.removeImpl d n i).2.edges d n).drop i).Perm ((s.edges d n).drop (i + 1)) := by
  rw [findImpl_eq (hs.nodup d n) hi, edges_removeImpl_self hs hi, removeImpl_of_mirror hs hi]
  exact ⟨rfl, rfl, take_swapPop _ hi, drop_swapPop_perm _ hi⟩

/-- The edge relation after `removeImpl`: the one edge the half at `i` belongs to is gone. -/
theorem isEdge_removeImpl (hs : s.Mirror) {d : Dir} {n : NodeId} {i : Nat}
    (hi : i < (s.edges d n).length) (x y : NodeId) (l : LabelRef) :
    (s.removeImpl d n i).2.IsEdge x y l ↔ s.IsEdge x y l ∧
      ¬((d = .succ ∧ x = n ∧ y = (s.edges d n)[i].neighbor) ∨
        (d = .pred ∧ x = (s.edges d n)[i].neighbor ∧ y = n)) := by
  simp only [IsEdge, successors_eq, mem_edges_removeImpl hs hi]
  cases d <;> simp

/-- `A.removeSuccessor(B)` and `B.removePredecessor(A)` of an edge `A → B` leave the same arena. -/
theorem Mirror.removeSuccessor_eq_removePredecessor (hs : s.Mirror) {a b : NodeId} {l : LabelRef}
    (he : s.IsEdge a b l) : (s.removeSuccessor a b).2 = (s.removePredecessor b a).2 := by
  have hi : s.findImpl .succ a b < (s.edges .succ a).length := findImpl_lt_iff.2 ⟨_, he, rfl⟩
  have hj : s.findImpl .pred b a < (s.edges .pred b).length :=
    findImpl_lt_iff.2 ⟨_, (hs.mirror a b l).1 he, rfl⟩
  simp only [removeSuccessor, removePredecessor, removeSuccessorImpl, removePredecessorImpl,
    findSuccessorImpl, findPredecessorImpl, removeImpl_of_mirror hs hi, removeImpl_of_mirror hs hj,
    neighbor_findImpl hi, neighbor_findImpl hj, Dir.flip_succ, Dir.flip_pred]
  exact setEdges_comm _ (by decide) _ _ _ _

/-- `removeSuccessorImpl` at `i` and `removePredecessorImpl` at `j` on a mirrored arena: each
    removes exactly the edge its half belongs to, returns its position, keeps the halves before it
    and reorders those after it; by value they are the same calls, and the two ways to remove an
    edge `A → B` leave the same arena. -/
theorem removeSuccessor_removes_edge (hs : s.Mirror) {a b : NodeId} {i j : Nat}
    (hi : i < (s.successors a).length) (hj : j < (s.predecessors b).length) :
    (s.removeSuccessorImpl a i).1 = .ok i ∧
    s.removeSuccessor a (s.successors a)[i].neighbor = s.removeSuccessorImpl a i ∧
    (∀ x y l, (s.removeSuccessorImpl a i).2.IsEdge x y l ↔
      s.IsEdge x y l ∧ ¬(x = a ∧ y = (s.successors a)[i].neighbor)) ∧
    ((s.removeSuccessorImpl a i).2.successors a).take i = (s.successors a).take i ∧
    (((s.removeSuccessorImpl a i).2.successors a).drop i).Perm ((s.successors a).drop (i + 1)) ∧
    (s.removePredecessorImpl b j).1 = .ok j ∧
    s.removePredecessor b (s.predecessors b)[j].neighbor = s.removePredecessorImpl b j ∧
    (∀ x y l, (s.removePredecessorImpl b j).2.IsEdge x y l ↔
      s.IsEdge x y l ∧ ¬(x = (s.predecessors b)[j].neighbor ∧ y = b)) ∧
    ((s.removePredecessorImpl b j).2.predecessors b).take j = (s.predecessors b).take j ∧
    (((s.removePredecessorImpl b j).2.predecessors b).drop j).Perm
      ((s.predecessors b).drop (j + 1)) ∧
    (s.removeSuccessor a (s.successors a)[i].neighbor).2 =
      (s.removePredecessor (s.successors a)[i].neighbor a).2 := by
  obtain ⟨h₁, h₂, h₃, h₄⟩ := removeImpl_spec hs hi
  obtain ⟨h₅, h₆, h₇, h₈⟩ := removeImpl_spec hs hj
  refine ⟨h₁, h₂, fun x y l => ?_, h₃, h₄, h₅, h₆, fun x y l => ?_, h₇, h₈,
    hs.removeSuccessor_eq_removePredecessor (List.getElem_mem hi)⟩
  · simpa using isEdge_removeImpl hs hi x y l
  · simpa using isEdge_removeImpl hs hj x y l

theorem removeSuccessor_removes_edge_chainABC :
    chainABC.Mirror ∧ 0 < (chainABC.successors 0).length ∧ 0 < (chainABC.predecessors 2).length ∧
    ((chainABC.removeSuccessorImpl 0 0).1 = .ok 0 ∧
    chainABC.removeSuccessor 0 (chainABC.successors 0)[0].neighbor =
      chainABC.removeSuccessorImpl 0 0 ∧
    (∀ x y l, (chainABC.removeSuccessorImpl 0 0).2.IsEdge x y l ↔
      chainABC.IsEdge x y l ∧ ¬(x = 0 ∧ y = (chainABC.successors 0)[0].neighbor)) ∧
    ((chainABC.removeSuccessorImpl 0 0).2.successors 0).take 0 = (chainABC.successors 0).take 0 ∧
    (((chainABC.removeSuccessorImpl 0 0).2.successors 0).drop 0).Perm
      ((chainABC.successors 0).drop 1) ∧
    (chainABC.removePredecessorImpl 2 0).1 = .ok 0 ∧
    chainABC.removePredecessor 2 (chainABC.predecessors 2)[0].neighbor =
      chainABC.removePredecessorImpl 2 0 ∧
    (∀ x y l, (chainABC.removePredecessorImpl 2 0).2.IsEdge x y l ↔
      chainABC.IsEdge x y l ∧ ¬(x = (chainABC.predecessors 2)[0].neighbor ∧ y = 2)) ∧
    ((chainABC.removePredecessorImpl 2 0).2.predecessors 2).take 0 =
      (chainABC.predecessors 2).take 0 ∧
    (((chainABC.removePredecessorImpl 2 0).2.predecessors 2).drop 0).Perm
      ((chainABC.predecessors 2).drop 1) ∧
    (chainABC.removeSuccessor 0 (chainABC.successors 0)[0].neighbor).2 =
      (chainABC.removePredecessor (chainABC.successors 0)[0].neighbor 0).2) :=
  ⟨Mirror.chainABC, by decide, by decide,
    removeSuccessor_removes_edge Mirror.chainABC (by decide) (by decide)⟩

/-! ## Removing an absent edge -/

theorem findImpl_eq_length_iff {d : Dir} {n m : NodeId} :
    s.findImpl d n m = (s.edges d n).length ↔ ∀ e ∈ s.edges d n, e.neighbor ≠ m := by
  simp [findImpl, List.findIdx_eq_length]

/-- Removing by value a neighbour the list does not name dereferences `end()`, unless the list is
    empty. -/
theorem removeImpl_findImpl_of_not_mem {d : Dir} {n m : NodeId}
    (h : ∀ e ∈ s.edges d n, e.neighbor ≠ m) (hne : s.edges d n ≠ []) :
    s.removeImpl d n (s.findImpl d n m) = (.error .outOfRange, s) := by
  simp [removeImpl, hne, findImpl_eq_length_iff.2 h]

/-- `A.removeSuccessor(C)` on the chain `A → B → C`, where `A → B` but not `A → C`: the search returns
    `end()`, position `1` of a one-element list, and the removal dereferences it. -/
theorem removeSuccessor_absent_reads_end :
    chainABC.Mirror ∧ (∀ e ∈ chainABC.successors 0, e.neighbor ≠ 2) ∧
    chainABC.findSuccessorImpl 0 2 = (chainABC.successors 0).length ∧
    chainABC.removeSuccessor 0 2 = (.error .outOfRange, chainABC) :=
  ⟨Mirror.chainABC, by decide, by decide,
    removeImpl_findImpl_of_not_mem (s := chainABC) (d := .succ) (n := 0) (m := 2) (by decide)
      (by decide)⟩

end Arena

end Revng
