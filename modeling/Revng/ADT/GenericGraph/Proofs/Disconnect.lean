import Revng.ADT.GenericGraph.Proofs.Mirror

set_option autoImplicit false

/-! # `disconnect`

Each loop of `disconnect` keeps calling `remove...Impl` at the front of one list of the node until
the list is empty. On a mirrored arena every call removes a half, so the loop ends after as many
rounds as the list is long (`Mirror.exists_drain`), and after both loops the node has no edge left and no
other node names it (`disconnect_isolates`).

Nothing in the loop itself makes it progress: `removeImpl` returns its input position unchanged,
without removing anything, when the far node's opposite list is empty. From such an arena the loop
never ends (`drain_eq_none_of_stuck`). -/

namespace Revng

namespace Arena

variable {L : Type} {s : Arena L}

/-- A loop that has finished within `fuel` rounds finishes the same way with more. -/
theorem drain_add (d : Dir) (n : NodeId) :
    ∀ (fuel : Nat) (s : Arena L) (it : Nat) (r : Except Fault Unit × Arena L),
      drain d n fuel s it = some r → ∀ k, drain d n (fuel + k) s it = some r
  | 0, _, _, _, h, _ => by simp [drain] at h
  | fuel + 1, s, it, r, h, k => by
    rw [Nat.add_right_comm, drain]
    rw [drain] at h
    split_ifs at h ⊢
    · exact h
    · split at h
      · next it' s₁ _ => exact drain_add d n fuel s₁ it' r h k
      · exact h

theorem disconnect_add {n : NodeId} {fuel : Nat} {r : Except Fault Unit × Arena L}
    (h : s.disconnect n fuel = some r) (k : Nat) : s.disconnect n (fuel + k) = some r := by
  unfold Arena.disconnect at h ⊢
  cases h₁ : drain .succ n fuel s 0 with
  | none => simp [h₁] at h
  | some r₁ =>
    rw [drain_add _ _ _ _ _ _ h₁ k]
    rw [h₁] at h
    rcases r₁ with ⟨_ | ⟨⟩, s₁⟩
    · exact h
    · exact drain_add _ _ _ _ _ _ h k

/-- One loop of `disconnect` on a mirrored arena: within `length + 1` rounds it ends, without a
    fault, having removed every edge one of whose halves was on the list, and no other. -/
theorem Mirror.exists_drain (d : Dir) (n : NodeId) :
    ∀ (k : Nat) (s : Arena L), s.Mirror → (s.edges d n).length = k →
      ∃ s', (∀ fuel, k < fuel → drain d n fuel s 0 = some (.ok (), s')) ∧ s'.Mirror ∧
        EdgesOnly s s' ∧ ∀ d' x e, e ∈ s'.edges d' x ↔
          e ∈ s.edges d' x ∧ ¬((d' = d ∧ x = n) ∨ (d' = d.flip ∧ e.neighbor = n))
  | 0, s, hs, hk => by
    have hnil : s.edges d n = [] := List.eq_nil_of_length_eq_zero hk
    refine ⟨s, fun fuel hf => ?_, hs, .refl s, fun d' x e => ⟨fun he => ⟨he, ?_⟩, And.left⟩⟩
    · obtain ⟨f, rfl⟩ : ∃ f, fuel = f + 1 := ⟨fuel - 1, by omega⟩
      simp [drain, hk]
    · obtain ⟨m, l⟩ := e
      rintro (⟨rfl, rfl⟩ | ⟨rfl, rfl : m = n⟩)
      · simp [hnil] at he
      · simpa [hnil] using hs.mem_flip.1 he
  | k + 1, s, hs, hk => by
    have hi : 0 < (s.edges d n).length := by omega
    obtain ⟨s', hrun, hs', hfr, hmem⟩ := Mirror.exists_drain d n k _ (hs.removeImpl hi)
      (by rw [edges_removeImpl_self hs hi, length_swapPop _ hi]; omega)
    refine ⟨s', fun fuel hf => ?_, hs', (removeImpl_edgesOnly ..).trans hfr, fun d' x e => ?_⟩
    · obtain ⟨f, rfl⟩ : ∃ f, fuel = f + 1 := ⟨fuel - 1, by omega⟩
      have hrm : s.removeImpl d n 0 = (.ok 0, (s.removeImpl d n 0).2) :=
        Prod.ext (removeImpl_spec hs hi).1 rfl
      rw [drain, if_neg (by omega), hrm]
      exact hrun f (by omega)
    · rw [hmem, mem_edges_removeImpl hs hi]
      constructor
      · rintro ⟨⟨he, -⟩, hn⟩
        exact ⟨he, hn⟩
      · rintro ⟨he, hn⟩
        exact ⟨⟨he, fun h => hn (h.imp (fun h => ⟨h.1, h.2.1⟩) (fun h => ⟨h.1, h.2.2⟩))⟩, hn⟩

/-- `disconnect` on a mirrored arena: with fuel beyond both list lengths it returns, and removes
    exactly the edges with an end at `n`. -/
theorem Mirror.exists_disconnect (hs : s.Mirror) (n : NodeId) :
    ∃ s', (∀ fuel, (s.edges .succ n).length < fuel → (s.edges .pred n).length < fuel →
        s.disconnect n fuel = some (.ok (), s')) ∧ s'.Mirror ∧ EdgesOnly s s' ∧
      ∀ d x e, e ∈ s'.edges d x ↔ e ∈ s.edges d x ∧ x ≠ n ∧ e.neighbor ≠ n := by
  obtain ⟨s₁, hrun₁, hs₁, hfr₁, hmem₁⟩ := Mirror.exists_drain .succ n _ s hs rfl
  obtain ⟨s₂, hrun₂, hs₂, hfr₂, hmem₂⟩ := Mirror.exists_drain .pred n _ s₁ hs₁ rfl
  have hlen : (s₁.edges .pred n).length ≤ (s.edges .pred n).length :=
    (((hs₁.nodup .pred n).of_map _).subperm fun e he => ((hmem₁ _ _ e).1 he).1).length_le
  refine ⟨s₂, fun fuel h₁ h₂ => ?_, hs₂, hfr₁.trans hfr₂, fun d x e => ?_⟩
  · simp only [Arena.disconnect, hrun₁ fuel h₁]
    exact hrun₂ fuel (by omega)
  · rw [hmem₂, hmem₁]
    cases d <;> simp <;> tauto

/-- Whatever fuel `disconnect` on a mirrored arena returns with, it returns what it returns with
    enough fuel. -/
theorem Mirror.disconnect_eq_some (hs : s.Mirror) {n : NodeId} {fuel : Nat}
    {r : Except Fault Unit} {s' : Arena L} (h : s.disconnect n fuel = some (r, s')) :
    r = .ok () ∧ s'.Mirror ∧ EdgesOnly s s' ∧
      ∀ d x e, e ∈ s'.edges d x ↔ e ∈ s.edges d x ∧ x ≠ n ∧ e.neighbor ≠ n := by
  obtain ⟨s₀, hrun, hs₀, hfr, hmem⟩ := hs.exists_disconnect n
  have := disconnect_add h ((s.edges .succ n).length + (s.edges .pred n).length + 1)
  rw [hrun _ (by omega) (by omega)] at this
  cases this
  exact ⟨rfl, hs₀, hfr, hmem⟩

/-- `disconnect()` on a mirrored arena terminates without its assertion firing; afterwards `n` has
    no successor and no predecessor, no node names `n`, and every edge not incident to `n` is still
    there with its own label allocation. -/
theorem disconnect_isolates (hs : s.Mirror) (n : NodeId) :
    ∃ s', (∀ fuel, (s.successors n).length < fuel → (s.predecessors n).length < fuel →
        s.disconnect n fuel = some (.ok (), s')) ∧
      s'.successors n = [] ∧ s'.predecessors n = [] ∧
      (∀ x e, e ∈ s'.successors x → e.neighbor ≠ n) ∧
      (∀ x e, e ∈ s'.predecessors x → e.neighbor ≠ n) ∧
      (∀ a b l, a ≠ n → b ≠ n → (s'.IsEdge a b l ↔ s.IsEdge a b l)) := by
  obtain ⟨s', hrun, -, -, hmem⟩ := hs.exists_disconnect n
  refine ⟨s', hrun, List.eq_nil_iff_forall_not_mem.2 fun e he => ?_,
    List.eq_nil_iff_forall_not_mem.2 fun e he => ?_, fun x e he => ((hmem _ x e).1 he).2.2,
    fun x e he => ((hmem _ x e).1 he).2.2, fun a b l ha hb => ?_⟩
  · exact ((hmem _ n e).1 he).2.1 rfl
  · exact ((hmem _ n e).1 he).2.1 rfl
  · simp only [IsEdge, successors_eq, hmem]
    simp [ha, hb]

theorem disconnect_isolates_chainABC :
    chainABC.Mirror ∧ ∃ s', (∀ fuel, (chainABC.successors 1).length < fuel →
        (chainABC.predecessors 1).length < fuel → chainABC.disconnect 1 fuel = some (.ok (), s')) ∧
      s'.successors 1 = [] ∧ s'.predecessors 1 = [] ∧
      (∀ x e, e ∈ s'.successors x → e.neighbor ≠ 1) ∧
      (∀ x e, e ∈ s'.predecessors x → e.neighbor ≠ 1) ∧
      (∀ a b l, a ≠ 1 → b ≠ 1 → (s'.IsEdge a b l ↔ chainABC.IsEdge a b l)) :=
  ⟨Mirror.chainABC, disconnect_isolates Mirror.chainABC 1⟩

/-! ## Broken layouts -/

/-- When `remove...Impl` at `it` returns `it` and leaves the arena as it was, the loop spins. -/
theorem drain_eq_none_of_stuck {d : Dir} {n : NodeId} {it : Nat}
    (hstuck : s.removeImpl d n it = (.ok it, s)) (hlen : it ≠ (s.edges d n).length) :
    ∀ fuel, drain d n fuel s it = none
  | 0 => rfl
  | fuel + 1 => by
    rw [drain, if_neg hlen, hstuck]
    exact drain_eq_none_of_stuck hstuck hlen fuel

end Arena

end Revng
