import Revng.ADT.GenericGraph.MutableEdgeNode
import Mathlib.Data.List.Perm.Basic

set_option autoImplicit false

/-! # `BidirectionalNode`

A `BidirectionalNode` is a `ForwardNode`, whose successor list holds `Edge`s (a neighbour and a
label, both by value), with a predecessor list of the same `Edge`s. `addSuccessor` appends a record
on both sides. `addPredecessor` appends its own predecessor record and then calls the neighbour's
`addSuccessor`, the one of `BidirectionalNode`, which appends a second: every call gives the
predecessor side of the pair one record more than the successor side (`predLabels_run`), so a run
keeps the two sides mirrored exactly when it never calls `addPredecessor` (`mirrored_run_iff`).

The removals are one-sided as well: `removeSuccessorEdge` erases a record of the node's own
successor list and `removePredecessorEdge` one of its predecessor list, and neither touches the
neighbour. Erasing one half of a mirrored pair breaks the mirror, and erasing both halves keeps it
(`Mirrored.removeEdges_paired`).

Each side holds its own copy of the label, as the header says ("this node stores COPIES of the
labels ... label mutation a deprecated behaviour"): an assignment to the label of a successor record
keeps the mirror exactly when it writes the value the label already had
(`Mirrored.writeSuccessorLabel_iff`).

The unlabeled overloads are the labeled ones at a default-constructed label. -/

namespace Revng

/-- `Edge<Node, EdgeLabel>`: a neighbour and a label, by value. -/
structure Edge (L : Type) where
  neighbor : NodeId
  label : L
deriving DecidableEq, Repr

/-- The successor and predecessor lists of a set of `BidirectionalNode`s. -/
structure BiArena (L : Type) where
  successors : NodeId → List (Edge L)
  predecessors : NodeId → List (Edge L)

namespace BiArena

variable {L : Type}

/-- Nodes with empty lists. -/
def empty : BiArena L := ⟨fun _ => [], fun _ => []⟩

/-- `ForwardNode::addSuccessor(NewSuccessor, EL)`: `Successors.emplace_back(NewSuccessor, EL)`. -/
def forwardAddSuccessor (s : BiArena L) (n m : NodeId) (el : L) : BiArena L :=
  { s with successors := Function.update s.successors n (s.successors n ++ [⟨m, el⟩]) }

/-- `BidirectionalNode::addSuccessor(NewSuccessor, EL)`: `Base::addSuccessor`, then
    `NewSuccessor->Predecessors.emplace_back(this, EL)`. -/
def addSuccessor (s : BiArena L) (n m : NodeId) (el : L) : BiArena L :=
  let s := s.forwardAddSuccessor n m el
  { s with predecessors := Function.update s.predecessors m (s.predecessors m ++ [⟨n, el⟩]) }

/-- `BidirectionalNode::addPredecessor(NewPredecessor, EL)`: `Predecessors.emplace_back`, then
    `NewPredecessor->addSuccessor(this, EL)`. -/
def addPredecessor (s : BiArena L) (n m : NodeId) (el : L) : BiArena L :=
  let s := { s with
    predecessors := Function.update s.predecessors n (s.predecessors n ++ [(⟨m, el⟩ : Edge L)]) }
  s.addSuccessor m n el

/-- `ForwardNode::removeSuccessorEdge(It)`, and `removeSuccessor(It)` through the neighbour view of
    the same position: `Successors.erase(It)` on node `n` at position `i`, which returns the position
    that now holds the record after the erased one. -/
def removeSuccessorEdge (s : BiArena L) (n : NodeId) (i : Nat) : Nat × BiArena L :=
  (i, { s with successors := Function.update s.successors n ((s.successors n).eraseIdx i) })

/-- `BidirectionalNode::removePredecessorEdge(It)`, and `removePredecessor(It)`:
    `Predecessors.erase(It)`. -/
def removePredecessorEdge (s : BiArena L) (n : NodeId) (i : Nat) : Nat × BiArena L :=
  (i, { s with predecessors := Function.update s.predecessors n ((s.predecessors n).eraseIdx i) })

/-- `static_cast<EdgeLabel &>(*It) = EL` through the `edge_iterator` that `successor_edges()` hands
    out, at position `i` of node `n`'s successors: the label copy of that record takes the value. -/
def writeSuccessorLabel (s : BiArena L) (n : NodeId) (i : Nat) (el : L) : BiArena L :=
  let successors := (s.successors n).modify (fun e => { e with label := el }) i
  { s with successors := Function.update s.successors n successors }

/-- A call that adds an edge. -/
inductive Op (L : Type) where
  | addSuccessor (n m : NodeId) (el : L)
  | addPredecessor (n m : NodeId) (el : L)

/-- Run one call. -/
def step (s : BiArena L) : Op L → BiArena L
  | .addSuccessor n m el => s.addSuccessor n m el
  | .addPredecessor n m el => s.addPredecessor n m el

/-- Run the calls `ops` in order. -/
def run (s : BiArena L) (ops : List (Op L)) : BiArena L := ops.foldl step s

/-! ## The mirror law -/

/-- The labels on `a`'s successor records for `b`, in order. -/
def succLabels (s : BiArena L) (a b : NodeId) : List L :=
  ((s.successors a).filter (·.neighbor == b)).map Edge.label

/-- The labels on `b`'s predecessor records for `a`, in order. -/
def predLabels (s : BiArena L) (b a : NodeId) : List L :=
  ((s.predecessors b).filter (·.neighbor == a)).map Edge.label

/-- What `GraphTraits<Inverse<T *>>` needs: for each ordered pair `(a, b)`, the labels on `a`'s
    successor records for `b` are, as a multiset, those on `b`'s predecessor records for `a`. -/
def Mirrored (s : BiArena L) : Prop := ∀ a b, (s.succLabels a b).Perm (s.predLabels b a)

/-- The labels of the calls `b.addPredecessor(a, EL)` in `ops`. -/
def addPredecessorLabels (ops : List (Op L)) (b a : NodeId) : List L :=
  ops.filterMap fun
    | .addPredecessor n m el => if n = b ∧ m = a then some el else none
    | .addSuccessor .. => none

@[simp] theorem succLabels_addSuccessor (s : BiArena L) (n m : NodeId) (el : L) (a b : NodeId) :
    (s.addSuccessor n m el).succLabels a b =
      s.succLabels a b ++ if a = n ∧ b = m then [el] else [] := by
  simp only [addSuccessor, forwardAddSuccessor, succLabels, Function.update_apply]
  by_cases ha : a = n
  · by_cases hb : b = m
    · subst ha hb
      simp
    · simp [ha, hb, Ne.symm hb]
  · simp [ha]

@[simp] theorem predLabels_addSuccessor (s : BiArena L) (n m : NodeId) (el : L) (a b : NodeId) :
    (s.addSuccessor n m el).predLabels b a =
      s.predLabels b a ++ if a = n ∧ b = m then [el] else [] := by
  simp only [addSuccessor, forwardAddSuccessor, predLabels, Function.update_apply]
  by_cases hb : b = m
  · by_cases ha : a = n
    · subst ha hb
      simp
    · simp [ha, hb, Ne.symm ha]
  · simp [hb]

/-- `b.addPredecessor(a, EL)` adds one successor record for `b` to `a` and two predecessor records
    for `a` to `b`. -/
theorem labels_addPredecessor (s : BiArena L) (n m : NodeId) (el : L) (a b : NodeId) :
    (s.addPredecessor n m el).succLabels a b =
      s.succLabels a b ++ (if a = m ∧ b = n then [el] else []) ∧
    (s.addPredecessor n m el).predLabels b a =
      s.predLabels b a ++ (if a = m ∧ b = n then [el, el] else []) := by
  simp only [addPredecessor, addSuccessor, forwardAddSuccessor, succLabels, predLabels,
    Function.update_apply]
  by_cases ha : a = m <;> by_cases hb : b = n
  · subst ha hb
    simp
  · simp [ha, hb, Ne.symm hb]
  · simp [ha, hb, Ne.symm ha]
  · simp [ha, hb]

theorem addPredecessorLabels_cons (op : Op L) (ops : List (Op L)) (b a : NodeId) :
    addPredecessorLabels (op :: ops) b a =
      addPredecessorLabels [op] b a ++ addPredecessorLabels ops b a := by
  show addPredecessorLabels ([op] ++ ops) b a = _
  exact List.filterMap_append [op] ops _

/-- One call: the predecessor side gains what the successor side gains, plus the label of the
    call if it is `b.addPredecessor(a, EL)`. -/
theorem perm_step {s : BiArena L} {a b : NodeId} {X : List L} (op : Op L)
    (h : (s.predLabels b a).Perm (s.succLabels a b ++ X)) :
    ((s.step op).predLabels b a).Perm
      ((s.step op).succLabels a b ++ (X ++ addPredecessorLabels [op] b a)) := by
  classical
  rw [List.perm_iff_count] at h ⊢
  intro x
  have hx := h x
  rw [List.count_append] at hx
  cases op with
  | addSuccessor n m el =>
    simp only [step, succLabels_addSuccessor, predLabels_addSuccessor, addPredecessorLabels,
      List.filterMap_cons, List.filterMap_nil, List.append_nil, List.count_append]
    split_ifs <;> simp only [List.count_cons, List.count_nil] <;> omega
  | addPredecessor n m el =>
    obtain ⟨hs, hp⟩ := labels_addPredecessor s n m el a b
    simp only [step, hs, hp, addPredecessorLabels, List.filterMap_cons, List.filterMap_nil,
      List.count_append]
    by_cases hab : a = m ∧ b = n
    · obtain ⟨rfl, rfl⟩ := hab
      simp only [and_self, if_true, List.count_cons, List.count_nil]
      omega
    · have hba : ¬(n = b ∧ m = a) := fun h => hab ⟨h.2.symm, h.1.symm⟩
      simp only [hab, hba, if_false, List.count_nil]
      omega

theorem perm_run {a b : NodeId} :
    ∀ (ops : List (Op L)) (s : BiArena L) (X : List L),
      (s.predLabels b a).Perm (s.succLabels a b ++ X) →
      ((s.run ops).predLabels b a).Perm
        ((s.run ops).succLabels a b ++ (X ++ addPredecessorLabels ops b a))
  | [], s, X, h => by simpa [run, addPredecessorLabels] using h
  | op :: ops, s, X, h => by
    rw [addPredecessorLabels_cons]
    simpa only [List.append_assoc] using perm_run ops (s.step op) _ (perm_step op h)

/-- From nodes with empty lists, after any run of `addSuccessor` and `addPredecessor`, `b`'s
    predecessor records for `a` carry the labels of `a`'s successor records for `b` and, once more,
    the label of every call `b.addPredecessor(a, EL)`. -/
theorem predLabels_run (ops : List (Op L)) (a b : NodeId) :
    ((empty.run ops).predLabels b a).Perm
      ((empty.run ops).succLabels a b ++ addPredecessorLabels ops b a) := by
  simpa using perm_run (a := a) (b := b) ops empty [] (by simp [empty, succLabels, predLabels])

theorem addPredecessorLabels_eq_nil {ops : List (Op L)} {b a : NodeId} :
    addPredecessorLabels ops b a = [] ↔ ∀ el, Op.addPredecessor b a el ∉ ops := by
  simp only [addPredecessorLabels, List.filterMap_eq_nil_iff]
  constructor
  · intro h el hm
    simpa using h _ hm
  · rintro h (_ | ⟨n, m, el⟩) hm
    · rfl
    · by_cases hnm : n = b ∧ m = a
      · obtain ⟨rfl, rfl⟩ := hnm
        exact absurd hm (h el)
      · simp [hnm]

/-- A run from nodes with empty lists ends mirrored exactly when it never calls `addPredecessor`. -/
theorem mirrored_run_iff (ops : List (Op L)) :
    (empty.run ops).Mirrored ↔ ∀ n m el, Op.addPredecessor n m el ∉ ops := by
  constructor
  · intro h n m el hm
    have hlen := ((h m n).trans (predLabels_run ops m n)).length_eq
    rw [List.length_append] at hlen
    have hnil : addPredecessorLabels ops n m = [] := List.length_eq_zero.1 (by omega)
    exact addPredecessorLabels_eq_nil.1 hnil el hm
  · intro h a b
    have := predLabels_run ops a b
    rw [addPredecessorLabels_eq_nil.2 (h b a), List.append_nil] at this
    exact this.symm

/-- `B.addPredecessor(A)` on two unlabeled nodes with empty lists: `B` lists `A` twice as a
    predecessor, `A` lists `B` once as a successor. -/
theorem addPredecessor_duplicates :
    (empty.addPredecessor 1 0 ()).predecessors 1 = [⟨0, ()⟩, ⟨0, ()⟩] ∧
    (empty.addPredecessor 1 0 ()).successors 0 = [⟨1, ()⟩] ∧
    ¬(empty.addPredecessor 1 0 ()).Mirrored :=
  ⟨rfl, rfl, fun h => absurd (h 0 1).length_eq (by decide)⟩

/-! ## Removing an edge -/

theorem Mirrored.empty : (empty : BiArena L).Mirrored := fun _ _ => by
  simp [BiArena.empty, succLabels, predLabels]

theorem Mirrored.addSuccessor {s : BiArena L} (hs : s.Mirrored) (n m : NodeId) (el : L) :
    (s.addSuccessor n m el).Mirrored := fun a b => by
  rw [succLabels_addSuccessor, predLabels_addSuccessor]
  exact (hs a b).append_right _

/-- The labels a list of records holds for neighbour `b`, when the list is the record `e` in front
    of `rest` up to order: those of `rest`, and the label of `e` if `e` names `b`. -/
theorem labels_of_perm {l rest : List (Edge L)} {e : Edge L} (hl : l.Perm (e :: rest))
    (b : NodeId) :
    ((rest.filter (·.neighbor == b)).map Edge.label ++
      if b = e.neighbor then [e.label] else []).Perm
      ((l.filter (·.neighbor == b)).map Edge.label) := by
  refine List.Perm.trans ?_ ((hl.filter _).map _).symm
  by_cases hb : b = e.neighbor
  · simp [hb, List.filter_cons]
  · simp [hb, Ne.symm hb, List.filter_cons]

theorem succLabels_removeSuccessorEdge (s : BiArena L) {a b : NodeId} {i : Nat} {el : L}
    (hi : (s.successors a)[i]? = some ⟨b, el⟩) (x y : NodeId) :
    ((s.removeSuccessorEdge a i).2.succLabels x y ++ if x = a ∧ y = b then [el] else []).Perm
      (s.succLabels x y) := by
  by_cases hx : x = a
  · subst hx
    simpa [removeSuccessorEdge, succLabels] using labels_of_perm (perm_cons_eraseIdx hi) y
  · simp [removeSuccessorEdge, succLabels, hx]

theorem predLabels_removePredecessorEdge (s : BiArena L) {a b : NodeId} {j : Nat} {el : L}
    (hj : (s.predecessors b)[j]? = some ⟨a, el⟩) (x y : NodeId) :
    ((s.removePredecessorEdge b j).2.predLabels y x ++ if x = a ∧ y = b then [el] else []).Perm
      (s.predLabels y x) := by
  by_cases hy : y = b
  · subst hy
    simpa [removePredecessorEdge, predLabels] using labels_of_perm (perm_cons_eraseIdx hj) x
  · simp [removePredecessorEdge, predLabels, hy]

/-- On a mirrored arena, take a record `(b, EL)` at position `i` of `a`'s successors and a record
    `(a, EL)` at position `j` of `b`'s predecessors. `a.removeSuccessorEdge` at `i` alone leaves the
    arena unmirrored; followed by `b.removePredecessorEdge` at `j`, it leaves it mirrored. -/
theorem Mirrored.removeEdges_paired {s : BiArena L} (hs : s.Mirrored) {a b : NodeId} {i j : Nat}
    {el : L} (hi : (s.successors a)[i]? = some ⟨b, el⟩)
    (hj : (s.predecessors b)[j]? = some ⟨a, el⟩) :
    ¬(s.removeSuccessorEdge a i).2.Mirrored ∧
      ((s.removeSuccessorEdge a i).2.removePredecessorEdge b j).2.Mirrored := by
  have hsucc := succLabels_removeSuccessorEdge s hi
  refine ⟨fun h => ?_, fun x y => ?_⟩
  · have hlen := ((hsucc a b).trans ((hs a b).trans (h a b).symm)).length_eq
    simp at hlen
  · exact (List.perm_append_right_iff _).1
      ((hsucc x y).trans ((hs x y).trans (predLabels_removePredecessorEdge _ hj x y).symm))

/-- `A.addSuccessor(B)` on two unlabeled nodes, then the removal of that edge from `A`'s side and
    from `B`'s. -/
theorem removeEdges_paired_addSuccessor :
    (empty.addSuccessor 0 1 () : BiArena Unit).Mirrored ∧
    ((empty.addSuccessor 0 1 () : BiArena Unit).successors 0)[0]? = some ⟨1, ()⟩ ∧
    ((empty.addSuccessor 0 1 () : BiArena Unit).predecessors 1)[0]? = some ⟨0, ()⟩ ∧
    (¬((empty.addSuccessor 0 1 () : BiArena Unit).removeSuccessorEdge 0 0).2.Mirrored ∧
      (((empty.addSuccessor 0 1 () : BiArena Unit).removeSuccessorEdge 0 0).2.removePredecessorEdge
        1 0).2.Mirrored) :=
  have hm := (Mirrored.empty : (empty : BiArena Unit).Mirrored).addSuccessor 0 1 ()
  ⟨hm, rfl, rfl, hm.removeEdges_paired rfl rfl⟩

/-! ## Writing a label -/

theorem succLabels_writeSuccessorLabel (s : BiArena L) {a b : NodeId} {i : Nat} {el : L}
    (hi : (s.successors a)[i]? = some ⟨b, el⟩) (v : L) (x y : NodeId) :
    ((s.removeSuccessorEdge a i).2.succLabels x y ++ if x = a ∧ y = b then [v] else []).Perm
      ((s.writeSuccessorLabel a i v).succLabels x y) := by
  by_cases hx : x = a
  · subst hx
    simpa [removeSuccessorEdge, writeSuccessorLabel, succLabels] using
      labels_of_perm (perm_cons_modify (fun e => { e with label := v }) hi) y
  · simp [removeSuccessorEdge, writeSuccessorLabel, succLabels, hx]

/-- On a mirrored set of nodes, writing `v` over the label `EL` of the record `(b, EL)` at position
    `i` of `a`'s successors leaves the predecessor copy as it was: the nodes stay mirrored exactly
    when `v = EL`. -/
theorem Mirrored.writeSuccessorLabel_iff {s : BiArena L} (hs : s.Mirrored) {a b : NodeId}
    {i : Nat} {el : L} (hi : (s.successors a)[i]? = some ⟨b, el⟩) (v : L) :
    (s.writeSuccessorLabel a i v).Mirrored ↔ v = el := by
  have hold := succLabels_removeSuccessorEdge s hi
  have hnew := succLabels_writeSuccessorLabel s hi v
  constructor
  · intro h
    have hab := (hnew a b).trans ((h a b).trans ((hs a b).symm.trans (hold a b).symm))
    simp only [and_self, if_true] at hab
    simpa using (List.perm_append_left_iff _).1 hab
  · rintro rfl x y
    exact (hnew x y).symm.trans ((hold x y).trans (hs x y))

/-- `A.addSuccessor(B, 5)`, then `7` written over the label of `A`'s record. -/
theorem writeSuccessorLabel_iff_addSuccessor :
    (empty.addSuccessor 0 1 5 : BiArena Nat).Mirrored ∧
    ((empty.addSuccessor 0 1 5 : BiArena Nat).successors 0)[0]? = some ⟨1, 5⟩ ∧
    (((empty.addSuccessor 0 1 5 : BiArena Nat).writeSuccessorLabel 0 0 7).Mirrored ↔ 7 = 5) :=
  have hm := (Mirrored.empty : (empty : BiArena Nat).Mirrored).addSuccessor 0 1 5
  ⟨hm, rfl, hm.writeSuccessorLabel_iff rfl 7⟩

end BiArena

end Revng
