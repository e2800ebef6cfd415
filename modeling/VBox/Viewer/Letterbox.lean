import VBox.Lib.Scaling
import VBox.Viewer.Frame

/-!
# Viewer.Letterbox

Where a frame is shown in the host window (`aspect_fit_rect` in
`crates/client/src/viewer/frame.rs`): as large as fits, in the proportions of the frame, centred.

The arithmetic is on `u64`, and `u64Fit` and `u64Sub` stop where it would leave them.

* `aspectFitRect_wide`, `aspectFitRect_tall`: it does not, and one length is the window's.
* `aspectFitRect_spec`: the rectangle lies in the window, touches it on one axis, and is centred and
  proportional on the other.
-/

namespace VBox

open Raster Scaling

def u64Fit (n : Nat) : Except Fault Nat := if n < 2 ^ 64 then .ok n else .error .overflow

def u64Sub (a b : Nat) : Except Fault Nat := if b ≤ a then .ok (a - b) else .error .overflow

/-- `as u32` -/
def asU32 (n : Nat) : Nat := n % 2 ^ 32

theorem u64Fit_ok {n : Nat} (h : n < 2 ^ 64) : u64Fit n = .ok n := if_pos h

theorem u64Sub_ok {a b : Nat} (h : b ≤ a) : u64Sub a b = .ok (a - b) := if_pos h

theorem asU32_eq {n : Nat} (h : n < 2 ^ 32) : asU32 n = n := Nat.mod_eq_of_lt h

structure RenderRect where
  x : Nat
  y : Nat
  w : Nat
  h : Nat
  deriving DecidableEq

/-- The length on the axis that has room to spare: `dst` scaled by `num / den`, rounded. -/
def fitLength (dst num den limit : Nat) : Except Fault Nat := do
  let product ← u64Fit (dst * num)
  let rounded ← u64Fit (product + den / 2)
  return min (max (rounded / den) 1) limit

def aspectFitRect (srcWidth srcHeight dstWidth dstHeight : Nat) : Except Fault RenderRect := do
  let srcWidth := max srcWidth 1
  let srcHeight := max srcHeight 1
  let dstWidth := max dstWidth 1
  let dstHeight := max dstHeight 1
  let across ← u64Fit (srcWidth * dstHeight)
  let down ← u64Fit (dstWidth * srcHeight)
  let (width, height) ←
    if down < across then do
      let height ← fitLength dstWidth srcHeight srcWidth dstHeight
      pure (dstWidth, height)
    else do
      let width ← fitLength dstHeight srcWidth srcHeight dstWidth
      pure (width, dstHeight)
  let right ← u64Sub dstWidth width
  let bottom ← u64Sub dstHeight height
  return { x := asU32 (right / 2), y := asU32 (bottom / 2), w := asU32 width, h := asU32 height }

/-! ## The length that is fitted -/

/-- `length` is `exact` rounded, but at least one. -/
def Proportional (length : Nat) (exact : ℚ) : Prop :=
  (1 / 2 ≤ exact ∧ |(length : ℚ) - exact| ≤ 1 / 2) ∨ (exact < 1 / 2 ∧ length = 1)

theorem mul_lt_u64 {a b : Nat} (ha : a < 2 ^ 32) (hb : b < 2 ^ 32) :
    a * b ≤ (2 ^ 32 - 1) * (2 ^ 32 - 1) :=
  Nat.mul_le_mul (by omega) (by omega)

theorem fitLength_ok {dst num den limit : Nat} (hdst : dst < 2 ^ 32) (hnum : num < 2 ^ 32)
    (hden : 0 < den) (hden' : den < 2 ^ 32) (hlimit : 0 < limit) (hfits : dst * num ≤ den * limit) :
    ∃ length, fitLength dst num den limit = .ok length ∧ 0 < length ∧ length ≤ limit ∧
      Proportional length (dst * num / den) := by
  have hproduct := mul_lt_u64 hdst hnum
  have hle : roundDiv (dst * num) den ≤ limit := roundDiv_le hden hfits
  refine ⟨max (roundDiv (dst * num) den) 1, ?_, by omega, by omega, ?_⟩
  · rw [fitLength, u64Fit_ok (by omega)]
    simp only [bind, Except.bind]
    rw [u64Fit_ok (by omega)]
    show Except.ok (min (max (roundDiv (dst * num) den) 1) limit) = _
    rw [Nat.min_eq_left (by omega)]
  · have hden'' : (0 : ℚ) < den := by exact_mod_cast hden
    have hcast : ((dst * num : Nat) : ℚ) / den = dst * num / den := by push_cast; rfl
    by_cases hhalf : den ≤ 2 * (dst * num)
    · left
      have hpos := roundDiv_pos hden hhalf
      rw [Nat.max_eq_left (by omega), ← hcast]
      refine ⟨?_, abs_roundDiv_sub_le hden⟩
      rw [div_le_div_iff₀ (by norm_num) hden'', one_mul, mul_comm]
      exact_mod_cast hhalf
    · right
      rw [roundDiv_eq_zero (by omega), ← hcast]
      refine ⟨?_, rfl⟩
      rw [div_lt_div_iff₀ hden'' (by norm_num), one_mul, mul_comm]
      exact_mod_cast Nat.not_le.mp hhalf

/-! ## The rectangle -/

/-- `offset` leaves as much before a length as after it, up to one pixel. -/
def Centred (offset length limit : Nat) : Prop :=
  offset ≤ limit - (offset + length) ∧ limit - (offset + length) ≤ offset + 1

theorem centred_half {length limit : Nat} (h : length ≤ limit) :
    Centred ((limit - length) / 2) length limit := by
  unfold Centred
  omega

section Rect

variable {srcWidth srcHeight dstWidth dstHeight : Nat}

/-- The products that are compared do not overflow. -/
theorem aspectFitRect_products (hsw : srcWidth < 2 ^ 32) (hsh : srcHeight < 2 ^ 32)
    (hdw' : dstWidth < 2 ^ 32) (hdh' : dstHeight < 2 ^ 32) :
    u64Fit (max srcWidth 1 * dstHeight) = .ok (max srcWidth 1 * dstHeight) ∧
      u64Fit (dstWidth * max srcHeight 1) = .ok (dstWidth * max srcHeight 1) := by
  have hacross := mul_lt_u64 (show max srcWidth 1 < 2 ^ 32 by omega) hdh'
  have hdown := mul_lt_u64 hdw' (show max srcHeight 1 < 2 ^ 32 by omega)
  exact ⟨u64Fit_ok (by omega), u64Fit_ok (by omega)⟩

/-- A frame that is wider than the window, in proportion. -/
theorem aspectFitRect_wide (hsw : srcWidth < 2 ^ 32) (hsh : srcHeight < 2 ^ 32) (hdw : 0 < dstWidth)
    (hdw' : dstWidth < 2 ^ 32) (hdh : 0 < dstHeight) (hdh' : dstHeight < 2 ^ 32)
    (hwide : dstWidth * max srcHeight 1 < max srcWidth 1 * dstHeight) :
    ∃ height, 0 < height ∧ height ≤ dstHeight ∧
      Proportional height (dstWidth * (max srcHeight 1 : Nat) / (max srcWidth 1 : Nat)) ∧
      aspectFitRect srcWidth srcHeight dstWidth dstHeight =
        .ok ⟨0, (dstHeight - height) / 2, dstWidth, height⟩ := by
  obtain ⟨hacross, hdown⟩ := aspectFitRect_products hsw hsh hdw' hdh'
  obtain ⟨height, hheight, hpos, hle, hprop⟩ := fitLength_ok hdw'
    (show max srcHeight 1 < 2 ^ 32 by omega) (show 0 < max srcWidth 1 by omega) (by omega) hdh
    hwide.le
  refine ⟨height, hpos, hle, hprop, ?_⟩
  simp only [aspectFitRect, Nat.max_eq_left hdw, Nat.max_eq_left hdh, hacross, hdown, bind,
    Except.bind]
  rw [if_pos hwide, hheight]
  simp only [pure, Except.pure]
  rw [u64Sub_ok (Nat.le_refl _), u64Sub_ok hle]
  simp only [Nat.sub_self, Nat.zero_div]
  rw [asU32_eq (by omega), asU32_eq (by omega), asU32_eq hdw', asU32_eq (by omega)]

/-- A frame that is not. -/
theorem aspectFitRect_tall (hsw : srcWidth < 2 ^ 32) (hsh : srcHeight < 2 ^ 32) (hdw : 0 < dstWidth)
    (hdw' : dstWidth < 2 ^ 32) (hdh : 0 < dstHeight) (hdh' : dstHeight < 2 ^ 32)
    (htall : ¬ dstWidth * max srcHeight 1 < max srcWidth 1 * dstHeight) :
    ∃ width, 0 < width ∧ width ≤ dstWidth ∧
      Proportional width (dstHeight * (max srcWidth 1 : Nat) / (max srcHeight 1 : Nat)) ∧
      aspectFitRect srcWidth srcHeight dstWidth dstHeight =
        .ok ⟨(dstWidth - width) / 2, 0, width, dstHeight⟩ := by
  obtain ⟨hacross, hdown⟩ := aspectFitRect_products hsw hsh hdw' hdh'
  have hfits : dstHeight * max srcWidth 1 ≤ max srcHeight 1 * dstWidth := by
    rw [Nat.mul_comm, Nat.mul_comm (max srcHeight 1)]
    exact Nat.not_lt.mp htall
  obtain ⟨width, hwidth, hpos, hle, hprop⟩ := fitLength_ok hdh'
    (show max srcWidth 1 < 2 ^ 32 by omega) (show 0 < max srcHeight 1 by omega) (by omega) hdw
    hfits
  refine ⟨width, hpos, hle, hprop, ?_⟩
  simp only [aspectFitRect, Nat.max_eq_left hdw, Nat.max_eq_left hdh, hacross, hdown, bind,
    Except.bind]
  rw [if_neg htall, hwidth]
  simp only [pure, Except.pure]
  rw [u64Sub_ok hle, u64Sub_ok (Nat.le_refl _)]
  simp only [Nat.sub_self, Nat.zero_div]
  rw [asU32_eq (by omega), asU32_eq (by omega), asU32_eq (by omega), asU32_eq hdh']

/-- The rectangle is not empty, and inside the window. -/
theorem aspectFitRect_inside (hsw : srcWidth < 2 ^ 32) (hsh : srcHeight < 2 ^ 32)
    (hdw : 0 < dstWidth) (hdw' : dstWidth < 2 ^ 32) (hdh : 0 < dstHeight)
    (hdh' : dstHeight < 2 ^ 32) :
    ∃ r, aspectFitRect srcWidth srcHeight dstWidth dstHeight = .ok r ∧
      0 < r.w ∧ 0 < r.h ∧ r.x + r.w ≤ dstWidth ∧ r.y + r.h ≤ dstHeight := by
  by_cases hwide : dstWidth * max srcHeight 1 < max srcWidth 1 * dstHeight
  · obtain ⟨height, hpos, hle, -, hr⟩ := aspectFitRect_wide hsw hsh hdw hdw' hdh hdh' hwide
    exact ⟨_, hr, hdw, hpos, by simp only; omega, by simp only; omega⟩
  · obtain ⟨width, hpos, hle, -, hr⟩ := aspectFitRect_tall hsw hsh hdw hdw' hdh hdh' hwide
    exact ⟨_, hr, hpos, hdh, by simp only; omega, by simp only; omega⟩

/-- The frame fills the window on one axis; on the other it is proportional and centred. -/
theorem aspectFitRect_spec (hsw : srcWidth < 2 ^ 32) (hsh : srcHeight < 2 ^ 32) (hdw : 0 < dstWidth)
    (hdw' : dstWidth < 2 ^ 32) (hdh : 0 < dstHeight) (hdh' : dstHeight < 2 ^ 32) :
    ∃ r, aspectFitRect srcWidth srcHeight dstWidth dstHeight = .ok r ∧
      0 < r.w ∧ 0 < r.h ∧ r.x + r.w ≤ dstWidth ∧ r.y + r.h ≤ dstHeight ∧
      ((r.w = dstWidth ∧ Centred r.y r.h dstHeight ∧
          Proportional r.h (dstWidth * (max srcHeight 1 : Nat) / (max srcWidth 1 : Nat))) ∨
        (r.h = dstHeight ∧ Centred r.x r.w dstWidth ∧
          Proportional r.w (dstHeight * (max srcWidth 1 : Nat) / (max srcHeight 1 : Nat)))) := by
  obtain ⟨r, hr, hinside⟩ := aspectFitRect_inside hsw hsh hdw hdw' hdh hdh'
  obtain ⟨hw, hh, hx, hy⟩ := hinside
  refine ⟨r, hr, hw, hh, hx, hy, ?_⟩
  by_cases hwide : dstWidth * max srcHeight 1 < max srcWidth 1 * dstHeight
  · obtain ⟨height, -, hle, hprop, hr'⟩ := aspectFitRect_wide hsw hsh hdw hdw' hdh hdh' hwide
    obtain rfl := Except.ok.inj (hr.symm.trans hr')
    exact .inl ⟨rfl, centred_half hle, hprop⟩
  · obtain ⟨width, -, hle, hprop, hr'⟩ := aspectFitRect_tall hsw hsh hdw hdw' hdh hdh' hwide
    obtain rfl := Except.ok.inj (hr.symm.trans hr')
    exact .inr ⟨rfl, centred_half hle, hprop⟩

/-- A column of one pixel, as tall as a `u32` allows. -/
theorem aspectFitRect_spec_column :
    ∃ r, aspectFitRect 1 4294967295 800 600 = .ok r ∧ 0 < r.w ∧ r.x + r.w ≤ 800 := by
  obtain ⟨r, hr, hw, -, hx, -⟩ := aspectFitRect_spec (show 1 < 2 ^ 32 by decide)
    (show 4294967295 < 2 ^ 32 by decide) (show 0 < 800 by decide) (by decide)
    (show 0 < 600 by decide) (by decide)
  exact ⟨r, hr, hw, hx⟩

end Rect

end VBox
