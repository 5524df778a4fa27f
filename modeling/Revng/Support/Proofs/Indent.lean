import Revng.Support.Debug
import Mathlib.Algebra.Group.Int

set_option autoImplicit false

/-! # `IndentLevel`

`unindent` guards its subtraction with `revng_assert(IndentLevel - Level >= 0)`, but the difference
is `unsigned`, so the test always holds (`unindent_eq`). The integer model of the calls, `exact`,
adds, subtracts or sets the level on an enabled logger and does nothing on a disabled one. Against
it, no run of calls aborts, and the `unsigned` level is the integer level modulo `2 ^ 32`
(`runCalls_toNat`): an `unindent` past zero leaves a wrapped level, and the next `flush` pads the
name field by twice that level (`unindent_below_zero_wraps`). -/

namespace Revng

namespace Logger

/-- The assertion of `unindent` compares an `unsigned` with `0`: it never fails. -/
theorem unindent_eq (l : Logger) (level indentLevel : UInt32) :
    l.unindent level indentLevel =
      .ok (if l.isEnabled then indentLevel - level else indentLevel) := by
  have h0 : (0 : UInt32) ≤ indentLevel - level := Nat.zero_le _
  by_cases he : l.isEnabled <;> simp [unindent, he, h0]

namespace IndentCall

/-- A call read on integers: `old + k`, `old - k` or `k` on an enabled logger, `old` on a
    disabled one. -/
def exact : IndentCall → Int → Int
  | .indent l level, i => if l.isEnabled then i + level.toNat else i
  | .unindent l level, i => if l.isEnabled then i - level.toNat else i
  | .setIndentation l level, i => if l.isEnabled then level.toNat else i

/-- One call does not abort, and leaves the integer result modulo `2 ^ 32`. -/
theorem run_toNat (call : IndentCall) (indentLevel : UInt32) :
    ∃ v, call.run indentLevel = .ok v ∧ (v.toNat : Int) = call.exact indentLevel.toNat % 2 ^ 32 := by
  have hi : indentLevel.toNat < 2 ^ 32 := indentLevel.toNat_lt_size
  cases call with
  | indent l level =>
    have hadd : (indentLevel + level).toNat = (indentLevel.toNat + level.toNat) % 2 ^ 32 := rfl
    refine ⟨_, rfl, ?_⟩
    cases he : l.isEnabled <;> simp only [run, Logger.indent, exact, he, Bool.false_eq_true, ↓reduceIte] <;> omega
  | unindent l level =>
    have hl : level.toNat < 2 ^ 32 := level.toNat_lt_size
    have hsub : (indentLevel - level).toNat =
        (2 ^ 32 - level.toNat + indentLevel.toNat) % 2 ^ 32 := rfl
    refine ⟨_, unindent_eq l level indentLevel, ?_⟩
    cases he : l.isEnabled <;> simp only [exact, he, Bool.false_eq_true, ↓reduceIte] <;> omega
  | setIndentation l level =>
    have hl : level.toNat < 2 ^ 32 := level.toNat_lt_size
    refine ⟨_, rfl, ?_⟩
    cases he : l.isEnabled <;> simp only [run, Logger.setIndentation, exact, he, Bool.false_eq_true, ↓reduceIte] <;> omega

/-- Calls that agree modulo `2 ^ 32` before agree after. -/
theorem exact_congr (call : IndentCall) {x y : Int} (h : x % 2 ^ 32 = y % 2 ^ 32) :
    call.exact x % 2 ^ 32 = call.exact y % 2 ^ 32 := by
  cases call <;> simp only [exact] <;> split_ifs <;> omega

end IndentCall

/-- The integer level after the calls `calls`, in order. -/
def exactRun (calls : List IndentCall) (i : Int) : Int := calls.foldl (fun i call => call.exact i) i

theorem exactRun_congr (calls : List IndentCall) {x y : Int} (h : x % 2 ^ 32 = y % 2 ^ 32) :
    exactRun calls x % 2 ^ 32 = exactRun calls y % 2 ^ 32 := by
  induction calls generalizing x y with
  | nil => exact h
  | cons call calls ih => exact ih (call.exact_congr h)

/-- Any run of `indent`, `unindent` and `setIndentation` on the loggers of one instantiation
    completes without aborting, and leaves `IndentLevel` equal to the integer result of the calls
    modulo `2 ^ 32`. -/
theorem runCalls_toNat (calls : List IndentCall) (indentLevel : UInt32) :
    ∃ v, runCalls calls indentLevel = .ok v ∧
      (v.toNat : Int) = exactRun calls indentLevel.toNat % 2 ^ 32 := by
  induction calls generalizing indentLevel with
  | nil =>
    have hi : indentLevel.toNat < 2 ^ 32 := indentLevel.toNat_lt_size
    exact ⟨indentLevel, rfl, by simp only [exactRun, List.foldl_nil]; omega⟩
  | cons call calls ih =>
    obtain ⟨v, hv, hvx⟩ := call.run_toNat indentLevel
    obtain ⟨w, hw, hwx⟩ := ih v
    refine ⟨w, by rw [runCalls, hv]; exact hw, hwx.trans (exactRun_congr calls ?_)⟩
    have hvl : v.toNat < 2 ^ 32 := v.toNat_lt_size
    show (v.toNat : Int) % 2 ^ 32 = call.exact indentLevel.toNat % 2 ^ 32
    omega

/-- From the zero a `static unsigned` starts at, `unindent(1)` on an enabled logger does not
    abort but leaves `2 ^ 32 - 1`, where the integer result is `-1`; the next `flush` then pads
    the name field of a logger as long as the longest by `4294967294` spaces. -/
theorem unindent_below_zero_wraps :
    runCalls [.unindent ⟨true, true, "passes".toList, []⟩ 1] 0 = .ok 4294967295 ∧
    exactRun [.unindent ⟨true, true, "passes".toList, []⟩ 1] 0 = -1 ∧
    nameField 6 "passes".toList 4294967295 =
      '[' :: "passes".toList ++ "] ".toList ++ List.replicate 4294967294 ' ' :=
  ⟨rfl, by decide, rfl⟩

end Logger

end Revng
