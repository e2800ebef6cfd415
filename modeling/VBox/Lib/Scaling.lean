import Mathlib.Algebra.Order.Floor.Semifield
import Mathlib.Data.Rat.Floor
import Mathlib.Tactic.FieldSimp
import Mathlib.Tactic.Linarith

/-!
# Lib.Scaling

Lengths and positions scaled in integers. `roundDiv n d` is the quotient `n / d` rounded, halves
up; the position `x * w / r` is where position `x` of `r` lies among `w`.

* `abs_roundDiv_sub_le`: a rounded quotient is off by at most one half.
* `scale_lt`: a position inside stays inside.
* `floor_offset_scale`: the integer quotient is the exact one rounded down.
-/

namespace Scaling

def roundDiv (n d : Nat) : Nat := (n + d / 2) / d

theorem roundDiv_bounds {n d : Nat} (hd : 0 < d) :
    2 * (d * roundDiv n d) ≤ 2 * n + d ∧ 2 * n ≤ 2 * (d * roundDiv n d) + d := by
  have hdiv := Nat.div_add_mod (n + d / 2) d
  have hmod := Nat.mod_lt (n + d / 2) hd
  rw [roundDiv]
  omega

theorem abs_roundDiv_sub_le {n d : Nat} (hd : 0 < d) :
    |(roundDiv n d : ℚ) - n / d| ≤ 1 / 2 := by
  obtain ⟨hlow, hhigh⟩ := roundDiv_bounds (n := n) hd
  have hd' : (0 : ℚ) < d := by exact_mod_cast hd
  have hlow' : 2 * ((d : ℚ) * roundDiv n d) ≤ 2 * n + d := by exact_mod_cast hlow
  have hhigh' : 2 * (n : ℚ) ≤ 2 * ((d : ℚ) * roundDiv n d) + d := by exact_mod_cast hhigh
  have hcancel : (d : ℚ) * (n / d) = n := by field_simp
  rw [abs_le]
  constructor
  · by_contra hlt
    have := mul_lt_mul_of_pos_left (not_le.mp hlt) hd'
    rw [mul_sub, hcancel] at this
    linarith
  · by_contra hlt
    have := mul_lt_mul_of_pos_left (not_le.mp hlt) hd'
    rw [mul_sub, hcancel] at this
    linarith

/-- What is below one half is rounded to zero. -/
theorem roundDiv_eq_zero {n d : Nat} (h : 2 * n < d) : roundDiv n d = 0 :=
  Nat.div_eq_of_lt (by omega)

theorem roundDiv_pos {n d : Nat} (hd : 0 < d) (h : d ≤ 2 * n) : 0 < roundDiv n d :=
  Nat.div_pos (by omega) hd

/-- Rounding does not go past an integer. -/
theorem roundDiv_le {n d m : Nat} (hd : 0 < d) (h : n ≤ d * m) : roundDiv n d ≤ m := by
  rw [roundDiv, ← Nat.lt_succ_iff, Nat.div_lt_iff_lt_mul hd, Nat.succ_mul, Nat.mul_comm m]
  omega

theorem scale_lt {x r w : Nat} (hx : x < r) (hw : 0 < w) : x * w / r < w :=
  Nat.div_lt_of_lt_mul (Nat.mul_lt_mul_of_pos_right hx hw)

/-- The exact position, rounded down. -/
theorem floor_offset_scale (x0 x w r : Nat) :
    ⌊(x0 : ℚ) + x * w / r⌋ = x0 + ((x * w / r : Nat) : ℤ) := by
  have hcast : (x : ℚ) * w / r = ((x * w : Nat) : ℚ) / (r : Nat) := by push_cast; rfl
  rw [hcast, add_comm, Int.floor_add_natCast, Rat.floor_natCast_div_natCast, add_comm,
    Int.natCast_div]

end Scaling
