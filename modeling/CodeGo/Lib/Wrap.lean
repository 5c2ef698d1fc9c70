import Mathlib.Data.Int.Basic
import Mathlib.Tactic.Ring

/-!
# Two's complement 64-bit values

An `int64` is an integer in `[-2^63, 2^63)`; `wrap64` is the value a signed
64-bit operation leaves behind when the exact result falls outside.
-/

namespace CodeGo.Lib.Wrap

/-- The signed 64-bit value congruent to `x`. -/
def wrap64 (x : Int) : Int := Int.bmod x (2 ^ 64)

/-- Exactly representable as an `int64`. -/
def InRange (x : Int) : Prop := -2 ^ 63 ≤ x ∧ x < 2 ^ 63

instance (x : Int) : Decidable (InRange x) := inferInstanceAs (Decidable (_ ∧ _))

theorem wrap64_of_inRange {x : Int} (h : InRange x) : wrap64 x = x := by
  obtain ⟨hlo, hhi⟩ := h
  exact Int.bmod_eq_of_le (by omega) (by omega)

theorem wrap64_inRange (x : Int) : InRange (wrap64 x) := by
  have hlo := Int.le_bmod (x := x) (m := 2 ^ 64) (by decide)
  have hhi := Int.bmod_lt (x := x) (m := 2 ^ 64) (by decide)
  exact ⟨by simp only [wrap64]; omega, by simp only [wrap64]; omega⟩

@[simp] theorem wrap64_wrap64 (x : Int) : wrap64 (wrap64 x) = wrap64 x := by
  simp only [wrap64, Int.bmod_bmod]

@[simp] theorem wrap64_zero : wrap64 0 = 0 := rfl

@[simp] theorem wrap64_wrap64_add (x y : Int) : wrap64 (wrap64 x + y) = wrap64 (x + y) := by
  simp only [wrap64, Int.bmod_add_bmod]

@[simp] theorem wrap64_wrap64_sub (x y : Int) : wrap64 (wrap64 x - y) = wrap64 (x - y) := by
  simp only [wrap64, Int.bmod_sub_bmod]

theorem wrap64_of_nonneg {x : Int} (h : 0 ≤ x) (hlt : x < 2 ^ 63) : wrap64 x = x :=
  wrap64_of_inRange ⟨by omega, hlt⟩

end CodeGo.Lib.Wrap
