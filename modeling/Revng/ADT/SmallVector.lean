import Mathlib.Data.List.Perm.Basic
import Mathlib.Data.List.Nodup

set_option autoImplicit false

/-! # The `llvm::SmallVector` operations `GenericGraph.h` relies on

A `SmallVector` is modelled by a `List`, a position (an iterator) by a `Nat`, and `end()` by the
length. `emplace_back` is `· ++ [x]`, `erase(It)` is `List.eraseIdx`, and `std::find_if` is
`List.findIdx` (it yields the length when nothing matches).

The one operation with no library counterpart is the removal `MutableEdgeNode` performs,
`std::swap(*It, V.back()); V.pop_back();`. It runs in constant time and does not keep the order:
the last element moves into the hole. `swapPop_perm` says it removes the same element as an
order-preserving `erase`, and `take_swapPop`/`drop_swapPop_perm` say which order survives. -/

namespace Revng

variable {α : Type}

/-- `std::swap(V[i], V.back()); V.pop_back();` -/
def swapPop (l : List α) (i : Nat) : List α :=
  match l.getLast? with
  | none => []
  | some x => (l.set i x).dropLast

/-- Swap-and-pop at position `A.length`: the last element of `B` takes the hole. -/
theorem swapPop_append_cons (A B : List α) (x : α) :
    swapPop (A ++ x :: B) A.length = A ++ (B.getLast?.toList ++ B.dropLast) := by
  rcases List.eq_nil_or_concat B with rfl | ⟨B', y, rfl⟩
  · simp [swapPop]
  · simp only [List.concat_eq_append]
    rw [show A ++ x :: (B' ++ [y]) = (A ++ x :: B') ++ [y] by simp, swapPop,
      List.getLast?_concat]
    dsimp only
    rw [List.set_append_left _ _ (by simp), List.set_append_right _ _ le_rfl]
    simp only [List.length_append, List.length_cons, Nat.sub_self, List.set_cons_zero,
      List.getLast?_concat, Option.toList_some, List.dropLast_concat, List.singleton_append]

private theorem exists_append_cons_of_lt (l : List α) {i : Nat} (h : i < l.length) :
    ∃ A x B, l = A ++ x :: B ∧ A.length = i :=
  ⟨l.take i, l[i], l.drop (i + 1), by simp, by simp [Nat.min_eq_left h.le]⟩

/-- Moving the last element to the front permutes a list. -/
private theorem getLast?_toList_append_dropLast_perm (B : List α) :
    (B.getLast?.toList ++ B.dropLast).Perm B := by
  rcases List.eq_nil_or_concat B with rfl | ⟨B', y, rfl⟩
  · simp
  · simpa using (List.perm_append_singleton y B').symm

theorem swapPop_eq (l : List α) {i : Nat} (h : i < l.length) :
    swapPop l i
      = l.take i ++ ((l.drop (i + 1)).getLast?.toList ++ (l.drop (i + 1)).dropLast) := by
  obtain ⟨A, x, B, rfl, rfl⟩ := exists_append_cons_of_lt l h
  simp [swapPop_append_cons]

/-- The elements before the hole keep their places. -/
theorem take_swapPop (l : List α) {i : Nat} (h : i < l.length) :
    (swapPop l i).take i = l.take i := by
  rw [swapPop_eq l h, List.take_append_of_le_length (by simp [h.le]), List.take_take, min_self]

/-- The elements from the hole on are a reordering of those after it. -/
theorem drop_swapPop_perm (l : List α) {i : Nat} (h : i < l.length) :
    ((swapPop l i).drop i).Perm (l.drop (i + 1)) := by
  rw [swapPop_eq l h, List.drop_append_of_le_length (by simp [Nat.min_eq_left h.le]),
    List.drop_eq_nil_of_le (by simp [Nat.min_eq_left h.le]), List.nil_append]
  exact getLast?_toList_append_dropLast_perm (l.drop (i + 1))

/-- Swap-and-pop removes the same element as `erase`, up to order. -/
theorem swapPop_perm (l : List α) {i : Nat} (h : i < l.length) :
    (swapPop l i).Perm (l.eraseIdx i) := by
  obtain ⟨A, x, B, rfl, rfl⟩ := exists_append_cons_of_lt l h
  rw [swapPop_append_cons, List.eraseIdx_append_of_length_le le_rfl]
  simpa using (getLast?_toList_append_dropLast_perm B).append_left A

/-- `erase(It)` removes the element at `It` and keeps the others. -/
theorem perm_cons_eraseIdx {l : List α} {i : Nat} {x : α} (hi : l[i]? = some x) :
    l.Perm (x :: l.eraseIdx i) := by
  obtain ⟨h, rfl⟩ := List.getElem?_eq_some_iff.1 hi
  obtain ⟨A, x, B, rfl, rfl⟩ := exists_append_cons_of_lt l h
  rw [List.eraseIdx_append_of_length_le le_rfl, List.getElem_append_right le_rfl]
  simp

/-- An assignment through the reference at `It` changes the element there and keeps the others. -/
theorem perm_cons_modify (f : α → α) {l : List α} {i : Nat} {x : α} (hi : l[i]? = some x) :
    (l.modify f i).Perm (f x :: l.eraseIdx i) := by
  obtain ⟨h, rfl⟩ := List.getElem?_eq_some_iff.1 hi
  rw [List.modify_eq_take_cons_drop h, List.eraseIdx_eq_take_drop_succ]
  exact List.perm_middle

theorem length_swapPop (l : List α) {i : Nat} (h : i < l.length) :
    (swapPop l i).length = l.length - 1 := by
  rw [(swapPop_perm l h).length_eq, List.length_eraseIdx_of_lt h]

theorem nodup_map_swapPop {β : Type} (f : α → β) (l : List α) {i : Nat} (h : i < l.length)
    (hl : (l.map f).Nodup) : ((swapPop l i).map f).Nodup :=
  ((swapPop_perm l h).map f).nodup_iff.2 ((List.eraseIdx_sublist l i).map f |>.nodup hl)

/-- In a list without repetitions, swap-and-pop at `i` removes exactly `l[i]`. -/
theorem mem_swapPop (l : List α) {i : Nat} (h : i < l.length) (hl : l.Nodup) (x : α) :
    x ∈ swapPop l i ↔ x ∈ l ∧ x ≠ l[i] := by
  rw [(swapPop_perm l h).mem_iff, List.mem_eraseIdx_iff_getElem]
  constructor
  · rintro ⟨k, hk, hki, rfl⟩
    exact ⟨List.getElem_mem hk, fun he => hki ((hl.getElem_inj_iff).1 he)⟩
  · rintro ⟨hx, hne⟩
    obtain ⟨k, hk, rfl⟩ := List.getElem_of_mem hx
    exact ⟨k, hk, fun hki => hne (by subst hki; rfl), rfl⟩

/-- When no two elements share a key `f`, swap-and-pop at `i` removes exactly the element with
    key `f l[i]`. -/
theorem mem_swapPop_iff {β : Type} (f : α → β) (l : List α) {i : Nat} (h : i < l.length)
    (hl : (l.map f).Nodup) (x : α) : x ∈ swapPop l i ↔ x ∈ l ∧ f x ≠ f l[i] := by
  rw [mem_swapPop l h (hl.of_map f)]
  refine and_congr_right fun hx => not_congr ⟨fun he => he ▸ rfl, fun he => ?_⟩
  obtain ⟨k, hk, rfl⟩ := List.getElem_of_mem hx
  have hk' : k < (l.map f).length := by simpa using hk
  have hi' : i < (l.map f).length := by simpa using h
  have hki : k = i := hl.getElem_inj_iff.1 (by simpa using he : (l.map f)[k] = (l.map f)[i])
  subst hki
  rfl

end Revng
