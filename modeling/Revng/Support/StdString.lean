import Mathlib.Data.List.Basic
import Mathlib.Algebra.Group.Nat.Basic

set_option autoImplicit false

/-! # The `std::string` operations of `Debug.cpp`

A `std::string` is modelled by a `List Char`. Its positions and sizes are `size_t`, modelled by
`UInt64`, and `std::string::npos` is the largest of them. `find` and `rfind` are called with a
one-character needle only (`"\n"`, `"/"`), and are modelled so. `substr` and `erase` throw
`std::out_of_range` for a position past the end; no call in `Debug.cpp` passes one, and the model
does not take that branch.

A `List Char` can be longer than any `std::string`: the lemmas that read a `size_t` back as a
length ask that the length be one, `s.length < 2 ^ 64`. Under that, `find_spec` and `rfind_spec`
say where the needle is, as a split of the string. -/

namespace Revng

namespace StdString

/-- `std::string::npos`, the largest `size_t`. -/
def npos : UInt64 := UInt64.ofNat (UInt64.size - 1)

/-- `size()`. -/
def size (s : List Char) : UInt64 := UInt64.ofNat s.length

/-- `find(c, pos)`: the first position from `pos` on that holds `c`, else `npos`. -/
def find (s : List Char) (c : Char) (pos : UInt64) : UInt64 :=
  match (s.drop pos.toNat).indexOf? c with
  | some i => UInt64.ofNat (pos.toNat + i)
  | none => npos

/-- `rfind(c)`: the last position that holds `c`, else `npos`. -/
def rfind (s : List Char) (c : Char) : UInt64 :=
  match s.reverse.indexOf? c with
  | some i => UInt64.ofNat (s.length - 1 - i)
  | none => npos

/-- `substr(pos, count)`: the characters from `pos` on, at most `count` of them. -/
def substr (s : List Char) (pos count : UInt64) : List Char :=
  (s.drop pos.toNat).take count.toNat

/-- `erase(pos, count)`: remove the characters from `pos` on, at most `count` of them. -/
def erase (s : List Char) (pos count : UInt64) : List Char :=
  s.take pos.toNat ++ s.drop (pos.toNat + count.toNat)

/-- `resize(n)`: keep the first `n` characters, or pad with `'\0'` up to `n`. -/
def resize (s : List Char) (n : UInt64) : List Char :=
  s.take n.toNat ++ List.replicate (n.toNat - s.length) (Char.ofNat 0)

/-! ## From `size_t` back to lengths -/

theorem toNat_npos : npos.toNat = 2 ^ 64 - 1 := rfl

theorem toNat_size {s : List Char} (hs : s.length < 2 ^ 64) : (size s).toNat = s.length :=
  Nat.mod_eq_of_lt hs

/-- A position that is not `npos` can be stepped past without wrapping. -/
theorem toNat_add_one_of_ne_npos {a : UInt64} (h : a ≠ npos) : (a + 1).toNat = a.toNat + 1 := by
  have ha : a.toNat < 2 ^ 64 := a.toNat_lt_size
  have hne : a.toNat ≠ 2 ^ 64 - 1 := fun he => h (UInt64.toNat.inj (he.trans toNat_npos.symm))
  show (a.toNat + 1) % 2 ^ 64 = a.toNat + 1
  exact Nat.mod_eq_of_lt (by omega)

theorem toNat_toUInt64 (a : UInt32) : a.toUInt64.toNat = a.toNat := rfl

theorem lt_iff_toNat_lt {a b : UInt64} : a < b ↔ a.toNat < b.toNat := .rfl

theorem le_iff_toNat_le {a b : UInt64} : a ≤ b ↔ a.toNat ≤ b.toNat := .rfl

/-! ## Where the needle is -/

/-- `indexOf?` finds the first `c`, or says there is none. -/
theorem indexOf?_spec (l : List Char) (c : Char) :
    (c ∉ l ∧ l.indexOf? c = none) ∨
      ∃ a b, l = a ++ c :: b ∧ c ∉ a ∧ l.indexOf? c = some a.length := by
  induction l with
  | nil => exact .inl ⟨List.not_mem_nil c, rfl⟩
  | cons x l ih =>
    by_cases hx : x = c
    · subst hx
      exact .inr ⟨[], l, rfl, List.not_mem_nil _, by simp [List.indexOf?]⟩
    · have hstep : (x :: l).indexOf? c = (l.indexOf? c).map (· + 1) := by
        simp [List.indexOf?, hx, List.findIdx?_succ]
      rcases ih with ⟨hc, hi⟩ | ⟨a, b, rfl, hc, hi⟩
      · exact .inl ⟨by simp [hc, Ne.symm hx], by rw [hstep, hi]; rfl⟩
      · exact .inr ⟨x :: a, b, rfl, by simp [hc, Ne.symm hx], by rw [hstep, hi]; rfl⟩

/-- `find` from `pos`: no `c` follows `pos` and the result is `npos`, or the rest splits at its
    first `c`, whose position is the result. -/
theorem find_spec {s : List Char} (hs : s.length < 2 ^ 64) (c : Char) (pos : UInt64) :
    (c ∉ s.drop pos.toNat ∧ find s c pos = npos) ∨
      ∃ a b, s.drop pos.toNat = a ++ c :: b ∧ c ∉ a ∧
        (find s c pos).toNat = pos.toNat + a.length ∧ find s c pos ≠ npos := by
  rcases indexOf?_spec (s.drop pos.toNat) c with ⟨hc, hi⟩ | ⟨a, b, hab, hc, hi⟩
  · exact .inl ⟨hc, by simp [find, hi]⟩
  · have hlen : pos.toNat + a.length < s.length := by
      have := congrArg List.length hab
      simp only [List.length_drop, List.length_append, List.length_cons] at this
      omega
    have hfind : (find s c pos).toNat = pos.toNat + a.length := by
      simp only [find, hi]
      exact UInt64.toNat_ofNat_of_lt (show _ < 2 ^ 64 by omega)
    refine .inr ⟨a, b, hab, hc, hfind, fun h => ?_⟩
    rw [h, toNat_npos] at hfind
    omega

/-- `rfind`: no `c` at all and the result is `npos`, or the string splits at its last `c`, whose
    position is the result. -/
theorem rfind_spec {s : List Char} (hs : s.length < 2 ^ 64) (c : Char) :
    (c ∉ s ∧ rfind s c = npos) ∨
      ∃ a b, s = a ++ c :: b ∧ c ∉ b ∧ (rfind s c).toNat = a.length ∧ rfind s c ≠ npos := by
  rcases indexOf?_spec s.reverse c with ⟨hc, hi⟩ | ⟨a, b, hab, hc, hi⟩
  · exact .inl ⟨by simpa using hc, by simp [rfind, hi]⟩
  · have hs' : s = b.reverse ++ c :: a.reverse := by
      simpa using congrArg List.reverse hab
    have hlen : s.length = b.length + 1 + a.length := by
      rw [hs']
      simp only [List.length_append, List.length_reverse, List.length_cons]
      omega
    have hrfind : (rfind s c).toNat = b.length := by
      simp only [rfind, hi]
      rw [UInt64.toNat_ofNat_of_lt (show _ < 2 ^ 64 by omega)]
      omega
    refine .inr ⟨b.reverse, a.reverse, hs', by simpa using hc, by simpa using hrfind, fun h => ?_⟩
    rw [h, toNat_npos] at hrfind
    omega

end StdString

end Revng
