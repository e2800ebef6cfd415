import Mathlib.Data.Finset.Max
import Mathlib.Order.Interval.Finset.Nat
import Mathlib.Tactic.IntervalCases
import Mathlib.Tactic.NormNum
import Mathlib.Tactic.Positivity
import VBox.Viewer.Render

/-!
# Viewer.Cursor

Which pixel of the frame a click in the host window hits (`cursor_to_frame_coords` in
`crates/client/src/viewer/geometry.rs`), with rationals for `f64`.

A position is moved into the letterbox and scaled to the frame. At a pixel of the window this is the
pixel that is copied there; between two pixels it can be one that no pixel of the window shows.

`cursor_hits_sampled` is the first, `cursor_between_pixels` the second.
-/

namespace VBox

open Raster Scaling

/-! ## The mapping -/

/-- `f64::clamp`, for bounds in this order. -/
def clampF64 (value min max : ℚ) : ℚ :=
  if value < min then min else if max < value then max else value

/-- `as i32` of a `u32` -/
def u32AsI32 (n : Nat) : Int := (Int32.ofNat n).toInt

/-- `as i32` of an `f64`: the fraction is dropped, and what is out of range becomes a bound. -/
def f64AsI32 (value : ℚ) : Int :=
  max (-2 ^ 31) (min (2 ^ 31 - 1) (if 0 ≤ value then ⌊value⌋ else ⌈value⌉))

def clampF64ToI32 (value : ℚ) (min max : Int) : Int := f64AsI32 (clampF64 value min max)

def cursorToFrameCoords (hostX hostY : ℚ) (inner : Nat × Nat) (content : FrameRect)
    (frameSize : Nat × Nat) : Except Fault (Int × Int) := do
  let mapping ← aspectFitRect content.w content.h inner.1 inner.2
  let localX := clampF64 (hostX - mapping.x) 0 (mapping.w - 1 : Nat)
  let localY := clampF64 (hostY - mapping.y) 0 (mapping.h - 1 : Nat)
  let frameX := content.x + localX * (max content.w 1 : Nat) / (max mapping.w 1 : Nat)
  let frameY := content.y + localY * (max content.h 1 : Nat) / (max mapping.h 1 : Nat)
  let maxX := u32AsI32 (frameSize.1 - 1)
  let maxY := u32AsI32 (frameSize.2 - 1)
  return (clampF64ToI32 frameX 0 maxX, clampF64ToI32 frameY 0 maxY)

/-! ## One axis -/

/-- A scaled position is cut to the pixel it lies in, also where the frame ends. -/
theorem clampF64ToI32_scale {x0 w size k r : Nat} (hw : 0 < w) (hright : x0 + w ≤ size)
    (hsize : size < 2 ^ 31) (hk : k < r) :
    clampF64ToI32 (x0 + k * w / r) 0 (u32AsI32 (size - 1)) = ((x0 + k * w / r : Nat) : Int) := by
  have hscale := scale_lt hk hw
  have hlast : u32AsI32 (size - 1) = ((size - 1 : Nat) : Int) :=
    Int32.toInt_ofNat_of_lt (by omega)
  have hpos : (0 : ℚ) ≤ x0 + k * w / r := by positivity
  have hfloor := floor_offset_scale x0 k w r
  generalize k * w / r = q at hscale hfloor ⊢
  have htrunc : ∀ value : ℚ, 0 ≤ value → ⌊value⌋ = ((x0 + q : Nat) : Int) →
      f64AsI32 value = ((x0 + q : Nat) : Int) := by
    intro value hvalue hvaluefloor
    rw [f64AsI32, if_pos hvalue, hvaluefloor, min_eq_right (by omega), max_eq_right (by omega)]
  rw [clampF64ToI32, hlast, clampF64, if_neg (by simpa using not_lt.mpr hpos)]
  split
  · -- only a fraction lies beyond the last pixel
    rename_i hbeyond
    refine htrunc _ (by positivity) ?_
    have hle : ((size - 1 : Nat) : Int) ≤ ⌊(x0 : ℚ) + k * w / r⌋ :=
      Int.le_floor.mpr hbeyond.le
    rw [hfloor] at hle
    rw [Int.cast_natCast, Int.floor_natCast]
    omega
  · refine htrunc _ hpos ?_
    rw [hfloor, Int.natCast_add]

/-! ## The nearest pixel -/

/-- A coordinate of a host pixel, or one beyond all pixels of the letterbox. -/
def OnPixel (host : ℚ) (start length : Nat) : Prop :=
  (∃ n : Int, host = n) ∨ host < start ∨ ((start + length - 1 : Nat) : ℚ) < host

/-- `(px, py)` is a pixel of the letterbox, and none is nearer to the position. -/
def Nearest (hostX hostY : ℚ) (render : RenderRect) (px py : Nat) : Prop :=
  (render.x ≤ px ∧ px < render.x + render.w ∧ render.y ≤ py ∧ py < render.y + render.h) ∧
    ∀ qx qy, render.x ≤ qx → qx < render.x + render.w → render.y ≤ qy →
      qy < render.y + render.h →
      (hostX - px) ^ 2 + (hostY - py) ^ 2 ≤ (hostX - qx) ^ 2 + (hostY - qy) ^ 2

theorem exists_nearest (hostX hostY : ℚ) {render : RenderRect} (hw : 0 < render.w)
    (hh : 0 < render.h) : ∃ px py, Nearest hostX hostY render px py := by
  let pixels := Finset.Ico render.x (render.x + render.w) ×ˢ
    Finset.Ico render.y (render.y + render.h)
  have hpixels : pixels.Nonempty := by
    refine Finset.Nonempty.product ?_ ?_ <;> rw [Finset.nonempty_Ico] <;> omega
  obtain ⟨⟨px, py⟩, hmem, hmin⟩ := pixels.exists_min_image
    (fun p => (hostX - (p.1 : Nat)) ^ 2 + (hostY - (p.2 : Nat)) ^ 2) hpixels
  simp only [pixels, Finset.mem_product, Finset.mem_Ico] at hmem hmin
  refine ⟨px, py, ⟨hmem.1.1, hmem.1.2, hmem.2.1, hmem.2.2⟩, fun qx qy hx hx' hy hy' => ?_⟩
  exact hmin (qx, qy) ⟨⟨hx, hx'⟩, hy, hy'⟩

/-- A pixel of the letterbox is its own nearest one. -/
theorem nearest_self {render : RenderRect} {px py : Nat} (hx : render.x ≤ px)
    (hx' : px < render.x + render.w) (hy : render.y ≤ py) (hy' : py < render.y + render.h) :
    Nearest px py render px py := by
  refine ⟨⟨hx, hx', hy, hy'⟩, fun qx qy _ _ _ _ => ?_⟩
  rw [sub_self, sub_self, zero_pow two_ne_zero, add_zero]
  positivity

section Axis

variable {host : ℚ} {start length px : Nat}

theorem nearest_below (hbelow : host < start) (hlow : start ≤ px)
    (hnear : (host - px) ^ 2 ≤ (host - start) ^ 2) : px = start := by
  have hlow' : (start : ℚ) ≤ px := by exact_mod_cast hlow
  rw [sub_sq_comm host, sub_sq_comm host, sq_le_sq₀ (by linarith) (by linarith)] at hnear
  have hle : (px : ℚ) ≤ start := by linarith
  exact Nat.le_antisymm (by exact_mod_cast hle) hlow

theorem nearest_above {last : Nat} (habove : (last : ℚ) < host) (hhigh : px ≤ last)
    (hnear : (host - px) ^ 2 ≤ (host - last) ^ 2) : px = last := by
  have hhigh' : (px : ℚ) ≤ last := by exact_mod_cast hhigh
  rw [sq_le_sq₀ (by linarith) (by linarith)] at hnear
  have hle : (last : ℚ) ≤ px := by linarith
  exact Nat.le_antisymm hhigh (by exact_mod_cast hle)

/-- Clamped, a coordinate of a pixel or beyond the pixels is that of the nearest pixel. -/
theorem clampF64_nearest (hon : OnPixel host start length) (hlow : start ≤ px)
    (hhigh : px < start + length)
    (hnear : ∀ q, start ≤ q → q < start + length → (host - px) ^ 2 ≤ (host - q) ^ 2) :
    clampF64 (host - start) 0 (length - 1 : Nat) = ((px - start : Nat) : ℚ) := by
  have hlast : ((start + length - 1 : Nat) : ℚ) - start = ((length - 1 : Nat) : ℚ) := by
    rw [Nat.add_sub_assoc (by omega)]
    push_cast
    ring
  rcases lt_or_ge host start with hbelow | hstart
  · obtain rfl := nearest_below hbelow hlow (hnear start (Nat.le_refl _) (by omega))
    rw [clampF64, if_pos (by linarith), Nat.sub_self, Nat.cast_zero]
  rcases lt_or_ge ((start + length - 1 : Nat) : ℚ) host with habove | hend
  · have hpx := nearest_above habove (by omega) (hnear (start + length - 1) (by omega) (by omega))
    rw [clampF64, if_neg (by linarith), if_pos (by linarith)]
    congr 1
    omega
  · -- between the first and the last pixel it is an integer
    obtain ⟨n, rfl⟩ : ∃ n : Int, host = n :=
      hon.resolve_right (not_or.mpr ⟨not_lt.mpr hstart, not_lt.mpr hend⟩)
    have hstart' : (start : Int) ≤ n := by exact_mod_cast hstart
    have hend' : n ≤ ((start + length - 1 : Nat) : Int) := by exact_mod_cast hend
    obtain ⟨m, rfl⟩ : ∃ m : Nat, n = m := ⟨n.toNat, by omega⟩
    have hzero := hnear m (by omega) (by omega)
    rw [Int.cast_natCast] at hzero hstart hend ⊢
    rw [sub_self, zero_pow two_ne_zero, sq_nonpos_iff, sub_eq_zero] at hzero
    rw [clampF64, if_neg (by linarith), if_neg (by linarith), hzero, Nat.cast_sub hlow]

end Axis

/-! ## The pixel that is hit -/

section Hit

variable {content : FrameRect} {width height hostW hostH : Nat} {render : RenderRect}

/-- The cursor is on the pixel that the nearest one of the letterbox is scaled to. -/
theorem cursorToFrameCoords_nearest {hostX hostY : ℚ} {px py : Nat} (hwidth : width < 2 ^ 31)
    (hheight : height < 2 ^ 31) (hcontent : content.Inside width height)
    (hrender : aspectFitRect content.w content.h hostW hostH = .ok render)
    (honX : OnPixel hostX render.x render.w) (honY : OnPixel hostY render.y render.h)
    (hnear : Nearest hostX hostY render px py) :
    cursorToFrameCoords hostX hostY (hostW, hostH) content (width, height) =
      .ok (((content.x + (px - render.x) * content.w / render.w : Nat) : Int),
        ((content.y + (py - render.y) * content.h / render.h : Nat) : Int)) := by
  obtain ⟨⟨hpx, hpx', hpy, hpy'⟩, hnear⟩ := hnear
  have hlocalX := clampF64_nearest honX hpx hpx' fun q hq hq' => by
    have := hnear q py hq hq' hpy hpy'
    linarith
  have hlocalY := clampF64_nearest honY hpy hpy' fun q hq hq' => by
    have := hnear px q hpx hpx' hq hq'
    linarith
  have hcol : px - render.x < render.w := by omega
  have hrow : py - render.y < render.h := by omega
  simp only [cursorToFrameCoords, hrender, bind, Except.bind, hlocalX, hlocalY,
    Nat.max_eq_left hcontent.w_pos, Nat.max_eq_left hcontent.h_pos,
    Nat.max_eq_left (show 1 ≤ render.w by omega), Nat.max_eq_left (show 1 ≤ render.h by omega)]
  rw [clampF64ToI32_scale hcontent.w_pos hcontent.right_le hwidth hcol,
    clampF64ToI32_scale hcontent.h_pos hcontent.bottom_le hheight hrow]
  rfl

/-- That pixel is the one that is copied there. -/
theorem copied_from {pixels dst : List UInt32} {px py : Nat} (matte : UInt32)
    (hpixels : pixels.length = width * height) (hcontent : content.Inside width height)
    (hwidth : width < 2 ^ 32) (hheight : height < 2 ^ 32) (hdst : dst.length = hostW * hostH)
    (hostW_pos : 0 < hostW) (hostW_lt : hostW < 2 ^ 32) (hostH_pos : 0 < hostH)
    (hostH_lt : hostH < 2 ^ 32)
    (hrender : aspectFitRect content.w content.h hostW hostH = .ok render)
    (hpx : render.x ≤ px) (hpx' : px < render.x + render.w) (hpy : render.y ≤ py)
    (hpy' : py < render.y + render.h) :
    ∃ out shown, copyFrameRegionPreserveAspect pixels width content matte dst hostW hostH = .ok out ∧
      pixels[(content.y + (py - render.y) * content.h / render.h) * width +
        (content.x + (px - render.x) * content.w / render.w)]? = some shown ∧
      out[py * hostW + px]? = some (pixelForSoftbuffer shown matte) := by
  obtain ⟨render', out, hrender', hcopy, -, hout⟩ := copyFrameRegionPreserveAspect_spec matte
    hpixels hcontent hwidth hheight hdst hostW_pos hostH_pos
  rw [asU32_eq hostW_lt, asU32_eq hostH_lt] at hrender'
  obtain rfl := Except.ok.inj (hrender.symm.trans hrender')
  have hcol : px - render.x < render.w := by omega
  have hrow : py - render.y < render.h := by omega
  have hshown := hout (px - render.x) (py - render.y) hcol hrow
  rw [show render.y + (py - render.y) = py by omega,
    show render.x + (px - render.x) = px by omega] at hshown
  refine ⟨out, _, hcopy, ?_, hshown⟩
  have hindex := sampleIndex_lt hcontent hcol hrow
  rw [← hpixels] at hindex
  rw [sample, List.getD_eq_getElem?_getD, List.getElem?_eq_getElem hindex]
  exact List.getElem?_eq_getElem hindex

/-- At a pixel of the window, or beyond the letterbox, the cursor is on the pixel of the frame that
the nearest pixel of the letterbox is copied from. -/
theorem cursor_hits_sampled (hwidth : width < 2 ^ 31) (hheight : height < 2 ^ 31)
    (hcontent : content.Inside width height) (hostW_pos : 0 < hostW) (hostW_lt : hostW < 2 ^ 32)
    (hostH_pos : 0 < hostH) (hostH_lt : hostH < 2 ^ 32) :
    ∃ render, aspectFitRect content.w content.h hostW hostH = .ok render ∧
      ∀ hostX hostY, OnPixel hostX render.x render.w → OnPixel hostY render.y render.h →
        (∃ px py, Nearest hostX hostY render px py) ∧ ∀ px py, Nearest hostX hostY render px py →
        ∃ frameX frameY : Nat, frameX < width ∧ frameY < height ∧
          frameX = content.x + (px - render.x) * content.w / render.w ∧
          frameY = content.y + (py - render.y) * content.h / render.h ∧
          cursorToFrameCoords hostX hostY (hostW, hostH) content (width, height) =
            .ok ((frameX : Int), (frameY : Int)) ∧
          ∀ pixels matte dst, pixels.length = width * height → dst.length = hostW * hostH →
            ∃ out shown, copyFrameRegionPreserveAspect pixels width content matte dst hostW hostH =
                .ok out ∧
              pixels[frameY * width + frameX]? = some shown ∧
              out[py * hostW + px]? = some (pixelForSoftbuffer shown matte) := by
  have hright := hcontent.right_le
  have hbottom := hcontent.bottom_le
  obtain ⟨render, hrender, hrw, hrh, -⟩ := aspectFitRect_inside (show content.w < 2 ^ 32 by omega)
    (show content.h < 2 ^ 32 by omega) hostW_pos hostW_lt hostH_pos hostH_lt
  refine ⟨render, hrender, ?_⟩
  intro hostX hostY honX honY
  refine ⟨exists_nearest hostX hostY hrw hrh, fun px py hnearest => ?_⟩
  have hcursor :=
    cursorToFrameCoords_nearest hwidth hheight hcontent hrender honX honY hnearest
  obtain ⟨⟨hpx, hpx', hpy, hpy'⟩, -⟩ := hnearest
  have hscaleX := scale_lt (show px - render.x < render.w by omega) hcontent.w_pos
  have hscaleY := scale_lt (show py - render.y < render.h by omega) hcontent.h_pos
  refine ⟨_, _, Nat.lt_of_lt_of_le (Nat.add_lt_add_left hscaleX _) hright,
    Nat.lt_of_lt_of_le (Nat.add_lt_add_left hscaleY _) hbottom, rfl, rfl, hcursor, ?_⟩
  intro pixels matte dst hpixels hdst
  exact copied_from matte hpixels hcontent (by omega) (by omega) hdst hostW_pos hostW_lt hostH_pos
    hostH_lt hrender hpx hpx' hpy hpy'

end Hit

/-- The last pixel of a window onto the right half of a frame. -/
theorem cursor_hits_sampled_corner :
    ∃ render, aspectFitRect 4 8 3 2 = .ok render ∧ ∀ px py : Nat, render.x ≤ px →
      px < render.x + render.w → render.y ≤ py → py < render.y + render.h →
      cursorToFrameCoords px py (3, 2) ⟨4, 0, 4, 8⟩ (8, 8) =
        .ok (((4 + (px - render.x) * 4 / render.w : Nat) : Int),
          ((0 + (py - render.y) * 8 / render.h : Nat) : Int)) := by
  have hcontent : FrameRect.Inside ⟨4, 0, 4, 8⟩ 8 8 := ⟨by decide, by decide, by decide, by decide⟩
  obtain ⟨render, hrender, hhits⟩ := cursor_hits_sampled (show 8 < 2 ^ 31 by decide)
    (show 8 < 2 ^ 31 by decide) hcontent (show 0 < 3 by decide) (by decide) (show 0 < 2 by decide)
    (by decide)
  refine ⟨render, hrender, fun px py hx hx' hy hy' => ?_⟩
  obtain ⟨frameX, frameY, -, -, rfl, rfl, hcursor, -⟩ := (hhits px py (.inl ⟨px, rfl⟩)
    (.inl ⟨py, rfl⟩)).2 px py (nearest_self hx hx' hy hy')
  exact hcursor

/-- A frame of eight by eight pixels in a window of two by two. Above it and a quarter to the right
of the first pixel, the cursor is on a pixel of the frame that is not shown. -/
theorem cursor_between_pixels :
    aspectFitRect 8 8 2 2 = .ok ⟨0, 0, 2, 2⟩ ∧
      (∀ px py, Nearest (1 / 4) (-1) ⟨0, 0, 2, 2⟩ px py ↔ px = 0 ∧ py = 0) ∧
      cursorToFrameCoords (1 / 4) (-1) (2, 2) ⟨0, 0, 8, 8⟩ (8, 8) = .ok (1, 0) ∧
      ∀ pixels matte dst, pixels.length = 8 * 8 → dst.length = 2 * 2 →
        ∃ out shown, copyFrameRegionPreserveAspect pixels 8 ⟨0, 0, 8, 8⟩ matte dst 2 2 = .ok out ∧
          pixels[0]? = some shown ∧ out[0]? = some (pixelForSoftbuffer shown matte) := by
  have hrender : aspectFitRect 8 8 2 2 = .ok ⟨0, 0, 2, 2⟩ := by decide
  refine ⟨hrender, fun px py => ⟨?_, ?_⟩, ?_, fun pixels matte dst hpixels hdst => ?_⟩
  · rintro ⟨⟨-, hpx, -, hpy⟩, hnear⟩
    have hfirst := hnear 0 0 (Nat.le_refl _) (by decide) (Nat.le_refl _) (by decide)
    simp only at hpx hpy
    interval_cases px <;> interval_cases py <;>
      first | exact ⟨rfl, rfl⟩ | norm_num at hfirst
  · rintro ⟨rfl, rfl⟩
    refine ⟨⟨Nat.le_refl _, by decide, Nat.le_refl _, by decide⟩, fun qx qy _ hqx _ hqy => ?_⟩
    simp only at hqx hqy
    interval_cases qx <;> interval_cases qy <;> norm_num
  · have hlast : u32AsI32 (8 - 1) = 7 := by decide
    simp only [cursorToFrameCoords, hrender, bind, Except.bind, hlast]
    norm_num [clampF64ToI32, clampF64, f64AsI32]
    rfl
  · have hcontent : FrameRect.Inside ⟨0, 0, 8, 8⟩ 8 8 :=
      ⟨by decide, by decide, by decide, by decide⟩
    exact copied_from matte hpixels hcontent (by decide) (by decide) hdst (by decide) (by decide)
      (by decide) (by decide) hrender (Nat.zero_le 0) (by decide) (Nat.zero_le 0) (by decide)

end VBox
