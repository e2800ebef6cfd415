import VBox.Session.Capture

/-!
# Session.ShmReads

Which bytes of a client's memory `copy_shm_buffer` reads
(`crates/server/src/wayland_session/surface_capture.rs`). Its check asks for `stride * height` bytes
after the offset, and a row of `width` pixels takes `4 * width`. That no row is longer than the stride
is left to smithay, which refuses to make such a buffer.

* `checkedCopyShmBuffer`: the copy where every step of the arithmetic is checked.
* `checkedCopyShmBuffer_eq`: no step overflows.
* `copyShmBuffer_reads_iff`: for which buffers no read leaves the mapping.
* `created_copy_safe`: none does for the buffers that smithay makes.
-/

namespace VBox

open ByteCodec Raster

/-- An arithmetic step on `usize`s. -/
def usizeFit (n : Nat) : Except CopyError Nat :=
  if n < 2 ^ 64 then .ok n else .error (.panicked .overflow)

/-- `checked_mul` and `checked_add`, with the error that is returned for `None`. -/
def usizeChecked (n : Nat) : Except CopyError Nat :=
  if n < 2 ^ 64 then .ok n else .error .strideOverflow

/-- `vec![0u8; n]` -/
def vecFit (n : Nat) : Except CopyError Unit :=
  if n < 2 ^ 63 then .ok () else .error (.panicked .capacityOverflow)

theorem usizeFit_ok {n : Nat} (h : n < 2 ^ 64) : usizeFit n = .ok n := if_pos h

theorem usizeChecked_ok {n : Nat} (h : n < 2 ^ 64) : usizeChecked n = .ok n := if_pos h

theorem vecFit_ok {n : Nat} (h : n < 2 ^ 63) : vecFit n = .ok () := if_pos h

namespace ShmBuffer

/-- `convert_shm_pixel` on `src[src_px..src_px + 4]` -/
def readAt (b : ShmBuffer) (srcPx : Nat) : Except CopyError Bytes :=
  match b.memory[srcPx]?, b.memory[srcPx + 1]?, b.memory[srcPx + 2]?, b.memory[srcPx + 3]? with
  | some p0, some p1, some p2, some p3 =>
    match convertShmPixel b.format p0 p1 p2 p3 with
    | some rgba => .ok rgba
    | none => .error (.unsupportedFormat b.format)
  | _, _, _, _ => .error (.panicked .outOfBounds)

/-- The body of the two loops; the tile has `total` bytes. -/
def checkedReadPixel (b : ShmBuffer) (rect : CopyRect) (total y x : Nat) : Except CopyError Bytes := do
  let srcY ← usizeFit (rect.skipY.toNat + y)
  let above ← usizeFit (srcY * b.stride.toInt.toNat)
  let srcRow ← usizeFit (b.offset.toInt.toNat + above)
  let dstRow ← usizeFit (y * (rect.width.toNat * 4))
  let srcX ← usizeFit (rect.skipX.toNat + x)
  let before ← usizeFit (srcX * 4)
  let srcPx ← usizeFit (srcRow + before)
  let dstBefore ← usizeFit (x * 4)
  let dstPx ← usizeFit (dstRow + dstBefore)
  let _ ← usizeFit (srcPx + 4)
  let rgba ← b.readAt srcPx
  let dstEnd ← usizeFit (dstPx + 4)
  if total < dstEnd then .error (.panicked .outOfBounds) else .ok rgba

def checkedReadRow (b : ShmBuffer) (rect : CopyRect) (total y : Nat) : Except CopyError Bytes := do
  let pixels ← (List.range rect.width.toNat).mapM (b.checkedReadPixel rect total y)
  return pixels.flatten

def checkedReadRows (b : ShmBuffer) (rect : CopyRect) : Except CopyError Bytes := do
  let total ← usizeFit (rect.width.toNat * 4 * rect.height.toNat)
  vecFit total
  let rows ← (List.range rect.height.toNat).mapM (b.checkedReadRow rect total)
  return rows.flatten

end ShmBuffer

/-- `copy_shm_buffer_with_bounds` where every step of the arithmetic is checked. -/
def checkedCopyShmBuffer (buffer : Option ShmBuffer) (id : UInt64) (offsetX offsetY : Int32)
    (bounds : Option SurfaceBounds) : Except CopyError (Option FrameTile) :=
  match buffer with
  | none => .error .access
  | some b =>
    if b.offset < 0 ∨ b.width ≤ 0 ∨ b.height ≤ 0 ∨ b.stride ≤ 0 then .error .invalidData
    else
      match checkedSurfaceCopyRect (nonnegative b.width) (nonnegative b.height) offsetX offsetY
        bounds with
      | .error fault => .error (.panicked fault)
      | .ok none => .ok none
      | .ok (some rect) =>
        if 2 ^ 32 ≤ rect.width.toNat * 4 then .error .strideOverflow
        else do
          let rows ← usizeChecked (b.stride.toInt.toNat * b.height.toInt.toNat)
          let minLen ← usizeChecked (b.offset.toInt.toNat + rows)
          if b.memory.length < minLen then .error (.tooShort b.memory.length minLen)
          else do
            let bytes ← b.checkedReadRows rect
            return some
              { id, x := rect.dstX, y := rect.dstY, w := rect.width, h := rect.height,
                stride := rect.width * 4, encoding := .rawRgba, bytes }

/-! ## The arithmetic -/

namespace ShmBuffer

variable {b : ShmBuffer}

theorem readPixel_eq (b : ShmBuffer) (x y : Nat) :
    b.readPixel x y =
      b.readAt (b.offset.toInt.toNat + y * b.stride.toInt.toNat + x * 4) := rfl

/-- A product of two numbers of 32 bits. -/
theorem mul_lt_usize {m n : Nat} (hm : m < 2 ^ 32) (hn : n < 2 ^ 31) :
    m * n ≤ (2 ^ 32 - 1) * (2 ^ 31 - 1) :=
  Nat.mul_le_mul (by omega) (by omega)

theorem toNat_lt (n : Int32) : n.toInt.toNat < 2 ^ 31 := by
  have hlt := n.toInt_lt
  omega

/-- The part of a buffer that is copied lies in it, and the tile's stride is a `u32`. -/
structure Part (b : ShmBuffer) (rect : CopyRect) : Prop where
  right : rect.skipX.toNat + rect.width.toNat ≤ b.width.toInt.toNat
  bottom : rect.skipY.toNat + rect.height.toNat ≤ b.height.toInt.toNat
  stride : rect.width.toNat * 4 < 2 ^ 32

theorem Part.checkedReadPixel_eq {rect : CopyRect} (h : b.Part rect) {y x : Nat}
    (hy : y < rect.height.toNat) (hx : x < rect.width.toNat) :
    b.checkedReadPixel rect (rect.width.toNat * 4 * rect.height.toNat) y x =
      b.readPixel (rect.skipX.toNat + x) (rect.skipY.toNat + y) := by
  have hright := h.right
  have hbottom := h.bottom
  have hstride := h.stride
  have hwidth := toNat_lt b.width
  have hheight := toNat_lt b.height
  have hoffset := toNat_lt b.offset
  have habove := mul_lt_usize (show rect.skipY.toNat + y < 2 ^ 32 by omega) (toNat_lt b.stride)
  have htotal := mul_lt_usize hstride (show rect.height.toNat < 2 ^ 31 by omega)
  have hrow : (y + 1) * (rect.width.toNat * 4) ≤ rect.height.toNat * (rect.width.toNat * 4) :=
    Nat.mul_le_mul_right _ hy
  rw [Nat.succ_mul, Nat.mul_comm rect.height.toNat] at hrow
  simp only [checkedReadPixel, bind, Except.bind]
  rw [usizeFit_ok (by omega)]
  simp only
  rw [usizeFit_ok (by omega)]
  simp only
  rw [usizeFit_ok (by omega)]
  simp only
  rw [usizeFit_ok (by omega)]
  simp only
  rw [usizeFit_ok (by omega)]
  simp only
  rw [usizeFit_ok (by omega)]
  simp only
  rw [usizeFit_ok (by omega)]
  simp only
  rw [usizeFit_ok (by omega)]
  simp only
  rw [usizeFit_ok (by omega)]
  simp only
  rw [usizeFit_ok (by omega), readPixel_eq]
  simp only
  cases b.readAt _ with
  | error e => rfl
  | ok rgba =>
    simp only
    rw [usizeFit_ok (by omega)]
    exact if_neg (by omega)

theorem Part.checkedReadRows_eq {rect : CopyRect} (h : b.Part rect) :
    b.checkedReadRows rect = b.readRows rect := by
  have hheight := toNat_lt b.height
  have hbottom := h.bottom
  have htotal := mul_lt_usize h.stride (show rect.height.toNat < 2 ^ 31 by omega)
  have hrow : ∀ y ∈ List.range rect.height.toNat,
      b.checkedReadRow rect (rect.width.toNat * 4 * rect.height.toNat) y = b.readRow rect y := by
    intro y hy
    rw [checkedReadRow, readRow, mapM_congr fun x hx =>
      h.checkedReadPixel_eq (List.mem_range.1 hy) (List.mem_range.1 hx)]
  rw [checkedReadRows, usizeFit_ok (by omega), readRows]
  simp only [bind, Except.bind]
  rw [vecFit_ok (by omega), mapM_congr hrow]

end ShmBuffer

theorem part_of_copyRect {b : ShmBuffer} {x y : Int32} {bounds : Option SurfaceBounds}
    {rect : CopyRect}
    (hrect : surfaceCopyRectWithBounds (nonnegative b.width) (nonnegative b.height) x y bounds =
      some rect) (hstride : rect.width.toNat * 4 < 2 ^ 32) : b.Part rect := by
  have hwithin := surfaceCopyRect_within hrect
  have hright := hwithin.right
  have hbottom := hwithin.bottom
  rw [toNat_nonnegative] at hright hbottom
  exact ⟨hright, hbottom, hstride⟩

/-- No step of the arithmetic overflows, whatever the client says about the buffer. -/
theorem checkedCopyShmBuffer_eq (buffer : Option ShmBuffer) (id : UInt64) (x y : Int32)
    (bounds : Option SurfaceBounds) :
    checkedCopyShmBuffer buffer id x y bounds = copyShmBufferWithBounds buffer id x y bounds := by
  cases buffer with
  | none => rfl
  | some b =>
    have hoffset := ShmBuffer.toNat_lt b.offset
    have hrows := ShmBuffer.mul_lt_usize (show b.stride.toInt.toNat < 2 ^ 32 by
      have := ShmBuffer.toNat_lt b.stride
      omega) (ShmBuffer.toNat_lt b.height)
    simp only [checkedCopyShmBuffer, copyShmBufferWithBounds, checkedSurfaceCopyRect_eq]
    split
    · rfl
    cases hrect : surfaceCopyRectWithBounds (nonnegative b.width) (nonnegative b.height) x y bounds with
    | none => rfl
    | some rect =>
      simp only
      split
      · rfl
      rename_i hstride
      have hpart := part_of_copyRect hrect (Nat.not_le.1 hstride)
      rw [usizeChecked_ok (by omega)]
      simp only [bind, Except.bind]
      rw [usizeChecked_ok (by omega), hpart.checkedReadRows_eq]
      simp only
      split
      · rfl
      · cases b.readRows rect <;> rfl

/-! ## The reads -/

/-- The first column or row of a surface that is shown. -/
def viewStart (off : Int) : Nat := (-off).toNat

/-- The end of the columns or rows of a surface that are shown. -/
def viewEnd (size : Nat) (off : Int) : Option Nat → Nat
  | none => size
  | some bound => min size (bound - off).toNat

namespace ShmBuffer

/-- The end of the columns that are shown. -/
def rightEnd (b : ShmBuffer) (x : Int32) (bounds : Option SurfaceBounds) : Nat :=
  viewEnd b.width.toInt.toNat x.toInt (bounds.map fun bounds => bounds.width.toNat)

/-- The end of the rows that are shown. -/
def bottomEnd (b : ShmBuffer) (y : Int32) (bounds : Option SurfaceBounds) : Nat :=
  viewEnd b.height.toInt.toNat y.toInt (bounds.map fun bounds => bounds.height.toNat)

/-- The buffer passes every check, and a part of it is shown. -/
structure Accepted (b : ShmBuffer) (x y : Int32) (bounds : Option SurfaceBounds) : Prop where
  offset : 0 ≤ b.offset.toInt
  width : 0 < b.width.toInt
  height : 0 < b.height.toInt
  stride : 0 < b.stride.toInt
  columns : viewStart x.toInt < b.rightEnd x bounds
  rows : viewStart y.toInt < b.bottomEnd y bounds
  tile : (b.rightEnd x bounds - viewStart x.toInt) * 4 < 2 ^ 32
  length : b.offset.toInt.toNat + b.stride.toInt.toNat * b.height.toInt.toNat ≤ b.memory.length

/-- The end of the pixel at a column and a row. -/
def pixelEnd (b : ShmBuffer) (x y : Nat) : Nat :=
  b.offset.toInt.toNat + y * b.stride.toInt.toNat + x * 4 + 4

/-- The last pixel that is read lies in the mapping: the last one that is shown, or the first one
where its format is refused. -/
def LastReadInside (b : ShmBuffer) (x y : Int32) (bounds : Option SurfaceBounds) : Prop :=
  match b.format with
  | .other _ => b.pixelEnd (viewStart x.toInt) (viewStart y.toInt) ≤ b.memory.length
  | _ => b.pixelEnd (b.rightEnd x bounds - 1) (b.bottomEnd y bounds - 1) ≤ b.memory.length

end ShmBuffer

theorem surfaceCopyRect_view {b : ShmBuffer} {x y : Int32} {bounds : Option SurfaceBounds}
    {rect : CopyRect}
    (h : surfaceCopyRectWithBounds (nonnegative b.width) (nonnegative b.height) x y bounds =
      some rect) :
    rect.skipX.toNat = viewStart x.toInt ∧ rect.skipY.toNat = viewStart y.toInt ∧
      rect.skipX.toNat + rect.width.toNat = b.rightEnd x bounds ∧
      rect.skipY.toNat + rect.height.toNat = b.bottomEnd y bounds ∧
      0 < rect.width.toNat ∧ 0 < rect.height.toNat := by
  have hclip := surfaceCopyRect_clipped h
  have hpos := hclip.extent_pos
  have hskipX := hclip.skipX
  have hskipY := hclip.skipY
  have hdstX : rect.dstX.toNat = x.toInt.toNat := by rw [hclip.dstX, toNat_nonnegative]
  have hdstY : rect.dstY.toNat = y.toInt.toNat := by rw [hclip.dstY, toNat_nonnegative]
  have hleft := hclip.left
  have htop := hclip.top
  rw [toNat_nonnegative] at hleft htop
  refine ⟨hskipX, hskipY, ?_, ?_, hpos⟩
  · cases bounds with
    | none =>
      obtain ⟨hwidth, -⟩ := hclip.unbounded rfl
      rw [toNat_nonnegative] at hwidth
      simp only [ShmBuffer.rightEnd, Option.map_none, viewEnd]
      omega
    | some bound =>
      obtain ⟨hin, -, hwidth, -⟩ := hclip.bounded bound rfl
      rw [toNat_nonnegative] at hwidth
      simp only [ShmBuffer.rightEnd, Option.map_some, viewEnd]
      omega
  · cases bounds with
    | none =>
      obtain ⟨-, hheight⟩ := hclip.unbounded rfl
      rw [toNat_nonnegative] at hheight
      simp only [ShmBuffer.bottomEnd, Option.map_none, viewEnd]
      omega
    | some bound =>
      obtain ⟨-, hin, -, hheight⟩ := hclip.bounded bound rfl
      rw [toNat_nonnegative] at hheight
      simp only [ShmBuffer.bottomEnd, Option.map_some, viewEnd]
      omega

theorem surfaceCopyRect_some_of_view {b : ShmBuffer} {x y : Int32} {bounds : Option SurfaceBounds}
    (hx : viewStart x.toInt < b.rightEnd x bounds)
    (hy : viewStart y.toInt < b.bottomEnd y bounds) :
    ∃ rect, surfaceCopyRectWithBounds (nonnegative b.width) (nonnegative b.height) x y bounds =
      some rect := by
  cases h : surfaceCopyRectWithBounds (nonnegative b.width) (nonnegative b.height) x y bounds with
  | some rect => exact ⟨rect, rfl⟩
  | none =>
    have hlands : Lands (nonnegative b.width) (nonnegative b.height) x y bounds (viewStart x.toInt)
        (viewStart y.toInt) x.toInt.toNat y.toInt.toNat := by
      cases bounds with
      | none =>
        simp only [ShmBuffer.rightEnd, ShmBuffer.bottomEnd, Option.map_none, viewEnd, viewStart]
          at hx hy
        refine ⟨?_, ?_, ?_, ?_, fun _ hb => (nomatch hb)⟩
        · rw [toNat_nonnegative]
          exact hx
        · rw [toNat_nonnegative]
          exact hy
        · unfold viewStart
          omega
        · unfold viewStart
          omega
      | some bound =>
        simp only [ShmBuffer.rightEnd, ShmBuffer.bottomEnd, Option.map_some, viewEnd, viewStart]
          at hx hy
        refine ⟨?_, ?_, ?_, ?_, fun _ hb => ?_⟩
        · rw [toNat_nonnegative, viewStart]
          omega
        · rw [toNat_nonnegative, viewStart]
          omega
        · unfold viewStart
          omega
        · unfold viewStart
          omega
        · cases hb
          omega
    exact absurd hlands (not_lands_of_none h)

/-! ## Reads outside the mapping -/

namespace ShmBuffer

variable {b : ShmBuffer}

theorem pixelEnd_le {x y x' y' : Nat} (hx : x ≤ x') (hy : y ≤ y') :
    b.pixelEnd x y ≤ b.pixelEnd x' y' := by
  have hrow := Nat.mul_le_mul_right b.stride.toInt.toNat hy
  unfold pixelEnd
  omega

theorem readPixel_of_inside {x y : Nat} (h : b.pixelEnd x y ≤ b.memory.length) :
    ∃ p0 p1 p2 p3, b.readPixel x y =
      match convertShmPixel b.format p0 p1 p2 p3 with
      | some rgba => .ok rgba
      | none => .error (.unsupportedFormat b.format) := by
  unfold pixelEnd at h
  have hget : ∀ k < 4, ∃ p,
      b.memory[b.offset.toInt.toNat + y * b.stride.toInt.toNat + x * 4 + k]? = some p :=
    fun k hk => ⟨_, List.getElem?_eq_getElem (by omega)⟩
  obtain ⟨p0, h0⟩ := hget 0 (by omega)
  obtain ⟨p1, h1⟩ := hget 1 (by omega)
  obtain ⟨p2, h2⟩ := hget 2 (by omega)
  obtain ⟨p3, h3⟩ := hget 3 (by omega)
  rw [Nat.add_zero] at h0
  refine ⟨p0, p1, p2, p3, ?_⟩
  simp only [readPixel_eq, readAt, h0, h1, h2, h3]

theorem readPixel_of_outside {x y : Nat} (h : b.memory.length < b.pixelEnd x y) :
    b.readPixel x y = .error (.panicked .outOfBounds) := by
  unfold pixelEnd at h
  rw [readPixel_eq, readAt, List.getElem?_eq_none (i := _ + 3) (by omega)]
  split <;> simp_all

/-- A pixel of a format that is converted is read, or the read is outside. -/
theorem readPixel_error {x y : Nat} {e : CopyError} (hformat : ∀ code, b.format ≠ .other code)
    (h : b.readPixel x y = .error e) :
    e = .panicked .outOfBounds ∧ b.memory.length < b.pixelEnd x y := by
  obtain hin | hout := Nat.lt_or_ge b.memory.length (b.pixelEnd x y)
  · rw [readPixel_of_outside hin] at h
    cases h
    exact ⟨rfl, hin⟩
  · obtain ⟨p0, p1, p2, p3, hpixel⟩ := readPixel_of_inside hout
    rw [hpixel] at h
    cases hf : b.format with
    | other code => exact absurd hf (hformat code)
    | argb8888 | xrgb8888 | abgr8888 | xbgr8888 =>
      rw [hf] at h
      cases h

theorem readRow_error {rect : CopyRect} {y : Nat} {e : CopyError} (h : b.readRow rect y = .error e) :
    ∃ x < rect.width.toNat,
      b.readPixel (rect.skipX.toNat + x) (rect.skipY.toNat + y) = .error e := by
  unfold readRow at h
  cases hmap : (List.range rect.width.toNat).mapM fun x =>
      b.readPixel (rect.skipX.toNat + x) (rect.skipY.toNat + y) with
  | ok pixels =>
    rw [hmap] at h
    cases h
  | error e' =>
    rw [hmap] at h
    cases h
    obtain ⟨x, hx, hpixel⟩ := mapM_error hmap
    exact ⟨x, List.mem_range.1 hx, hpixel⟩

theorem readRows_error {rect : CopyRect} {e : CopyError} (h : b.readRows rect = .error e) :
    ∃ x < rect.width.toNat, ∃ y < rect.height.toNat,
      b.readPixel (rect.skipX.toNat + x) (rect.skipY.toNat + y) = .error e := by
  unfold readRows at h
  cases hmap : (List.range rect.height.toNat).mapM (b.readRow rect) with
  | ok rows =>
    rw [hmap] at h
    cases h
  | error e' =>
    rw [hmap] at h
    cases h
    obtain ⟨y, hy, hrow⟩ := mapM_error hmap
    obtain ⟨x, hx, hpixel⟩ := readRow_error hrow
    exact ⟨x, hx, y, List.mem_range.1 hy, hpixel⟩

/-- Where the rows are read, every pixel is. -/
theorem readRows_ok {rect : CopyRect} {bytes : Bytes} (h : b.readRows rect = .ok bytes) {x y : Nat}
    (hx : x < rect.width.toNat) (hy : y < rect.height.toNat) :
    ∃ rgba, b.readPixel (rect.skipX.toNat + x) (rect.skipY.toNat + y) = .ok rgba := by
  obtain ⟨rows, hrows, -⟩ := bind_eq_ok.1 h
  obtain ⟨row, hrow⟩ := mapM_mem hrows (List.mem_range.2 hy)
  obtain ⟨pixels, hpixels, -⟩ := bind_eq_ok.1 hrow
  exact mapM_mem hpixels (List.mem_range.2 hx)

theorem readPixel_ok {x y : Nat} {rgba : Bytes} (h : b.readPixel x y = .ok rgba) :
    b.pixelEnd x y ≤ b.memory.length ∧ ∀ code, b.format ≠ .other code := by
  obtain hout | hin := Nat.lt_or_ge b.memory.length (b.pixelEnd x y)
  · rw [readPixel_of_outside hout] at h
    cases h
  · refine ⟨hin, fun code hf => ?_⟩
    obtain ⟨p0, p1, p2, p3, hpixel⟩ := readPixel_of_inside hin
    rw [hpixel, hf] at h
    cases h

/-- The loops stop at an error of the first pixel. -/
theorem readRows_first {rect : CopyRect} {e : CopyError} (hw : 0 < rect.width.toNat)
    (hh : 0 < rect.height.toNat)
    (h : b.readPixel rect.skipX.toNat rect.skipY.toNat = .error e) :
    b.readRows rect = .error e := by
  obtain ⟨w, hw⟩ := Nat.exists_eq_add_of_lt hw
  obtain ⟨n, hh⟩ := Nat.exists_eq_add_of_lt hh
  have hrow : b.readRow rect 0 = .error e := by
    rw [readRow, hw, List.range_succ_eq_map, List.mapM_cons, Nat.add_zero, Nat.add_zero, h]
    rfl
  rw [readRows, hh, List.range_succ_eq_map, List.mapM_cons, hrow]
  rfl

variable {x y : Int32} {bounds : Option SurfaceBounds} {rect : CopyRect}

/-- The reads of an accepted buffer go up to the last one of the view. -/
theorem readRows_panics_iff
    (h : surfaceCopyRectWithBounds (nonnegative b.width) (nonnegative b.height) x y bounds =
      some rect) :
    (∀ fault, b.readRows rect ≠ .error (.panicked fault)) ↔ b.LastReadInside x y bounds := by
  obtain ⟨hskipX, hskipY, hright, hbottom, hw, hh⟩ := surfaceCopyRect_view h
  by_cases hformat : ∀ code, b.format ≠ .other code
  · have hlast : b.LastReadInside x y bounds ↔
        b.pixelEnd (b.rightEnd x bounds - 1) (b.bottomEnd y bounds - 1) ≤ b.memory.length := by
      unfold LastReadInside
      split
      · rename_i code hf
        exact absurd hf (hformat code)
      · rfl
    rw [hlast]
    constructor
    · intro hsafe
      cases hrows : b.readRows rect with
      | error e =>
        obtain ⟨sx, -, sy, -, hpixel⟩ := readRows_error hrows
        obtain ⟨rfl, -⟩ := readPixel_error hformat hpixel
        exact absurd hrows (hsafe _)
      | ok bytes =>
        obtain ⟨rgba, hpixel⟩ := readRows_ok hrows (x := rect.width.toNat - 1)
          (y := rect.height.toNat - 1) (by omega) (by omega)
        obtain ⟨hin, -⟩ := readPixel_ok hpixel
        rwa [← Nat.add_sub_assoc hw, ← Nat.add_sub_assoc hh, hright, hbottom] at hin
    · intro hin fault hrows
      obtain ⟨sx, hsx, sy, hsy, hpixel⟩ := readRows_error hrows
      obtain ⟨-, hout⟩ := readPixel_error hformat hpixel
      have hle : b.pixelEnd (rect.skipX.toNat + sx) (rect.skipY.toNat + sy) ≤
          b.pixelEnd (b.rightEnd x bounds - 1) (b.bottomEnd y bounds - 1) :=
        pixelEnd_le (by omega) (by omega)
      omega
  · simp only [not_forall, not_not] at hformat
    obtain ⟨code, hf⟩ := hformat
    have hlast : b.LastReadInside x y bounds ↔
        b.pixelEnd rect.skipX.toNat rect.skipY.toNat ≤ b.memory.length := by
      rw [hskipX, hskipY]
      unfold LastReadInside
      rw [hf]
    rw [hlast]
    obtain hout | hin := Nat.lt_or_ge b.memory.length (b.pixelEnd rect.skipX.toNat rect.skipY.toNat)
    · refine iff_of_false (fun hsafe => ?_) (Nat.not_le.2 hout)
      exact hsafe _ (readRows_first hw hh (readPixel_of_outside hout))
    · refine iff_of_true (fun fault hrows => ?_) hin
      obtain ⟨p0, p1, p2, p3, hpixel⟩ := readPixel_of_inside hin
      rw [hf] at hpixel
      rw [readRows_first hw hh hpixel] at hrows
      cases hrows

theorem readPixel_fault {sx sy : Nat} {fault : Fault}
    (h : b.readPixel sx sy = .error (.panicked fault)) : fault = .outOfBounds := by
  obtain hout | hin := Nat.lt_or_ge b.memory.length (b.pixelEnd sx sy)
  · rw [readPixel_of_outside hout] at h
    cases h
    rfl
  · obtain ⟨p0, p1, p2, p3, hpixel⟩ := readPixel_of_inside hin
    rw [hpixel] at h
    split at h <;> cases h

/-- A copy that panics has passed the checks. -/
theorem copyShmBuffer_panics_iff {id : UInt64} {fault : Fault} :
    copyShmBufferWithBounds (some b) id x y bounds = .error (.panicked fault) ↔
      b.Accepted x y bounds ∧ ∃ rect,
        surfaceCopyRectWithBounds (nonnegative b.width) (nonnegative b.height) x y bounds =
          some rect ∧ b.readRows rect = .error (.panicked fault) := by
  have hzero : (0 : Int32).toInt = 0 := rfl
  simp only [copyShmBufferWithBounds]
  constructor
  · intro h
    split at h
    · cases h
    rename_i hvalid
    simp only [Int32.lt_iff_toInt_lt, Int32.le_iff_toInt_le, hzero, not_or, Int.not_lt,
      Int.not_le] at hvalid
    cases hrect : surfaceCopyRectWithBounds (nonnegative b.width) (nonnegative b.height) x y
        bounds with
    | none =>
      rw [hrect] at h
      cases h
    | some rect =>
      obtain ⟨hskipX, hskipY, hright, hbottom, hw, hh⟩ := surfaceCopyRect_view hrect
      simp only [hrect] at h
      split at h
      · cases h
      split at h
      · cases h
      cases hrows : b.readRows rect with
      | ok bytes =>
        rw [hrows] at h
        cases h
      | error e =>
        rw [hrows] at h
        cases h
        exact ⟨⟨hvalid.1, hvalid.2.1, hvalid.2.2.1, hvalid.2.2.2, by omega, by omega, by omega,
          by omega⟩, rect, rfl, hrows⟩
  · rintro ⟨hok, rect, hrect, hrows⟩
    obtain ⟨hskipX, hskipY, hright, hbottom, hw, hh⟩ := surfaceCopyRect_view hrect
    obtain ⟨hoffset, hwidth, hheight, hstride, -, -, htile, hlength⟩ := hok
    rw [if_neg (by
      simp only [Int32.lt_iff_toInt_lt, Int32.le_iff_toInt_le, hzero]
      omega), hrect]
    simp only
    rw [if_neg (by omega), if_neg (by omega), hrows]

/-- Whatever a client says about its buffer, no arithmetic overflows, and the copy does not panic if
and only if the last pixel it reads lies in the mapping. -/
theorem copyShmBuffer_reads_iff (b : ShmBuffer) (id : UInt64) (x y : Int32)
    (bounds : Option SurfaceBounds) :
    checkedCopyShmBuffer (some b) id x y bounds ≠ .error (.panicked .overflow) ∧
      ((∀ fault, checkedCopyShmBuffer (some b) id x y bounds ≠ .error (.panicked fault)) ↔
        (b.Accepted x y bounds → b.LastReadInside x y bounds)) := by
  rw [checkedCopyShmBuffer_eq]
  refine ⟨fun h => ?_, fun hsafe hok => ?_, fun hin fault h => ?_⟩
  · obtain ⟨-, rect, -, hrows⟩ := copyShmBuffer_panics_iff.1 h
    obtain ⟨sx, -, sy, -, hpixel⟩ := readRows_error hrows
    cases readPixel_fault hpixel
  · obtain ⟨rect, hrect⟩ := surfaceCopyRect_some_of_view hok.columns hok.rows
    refine (readRows_panics_iff hrect).1 fun fault hrows => ?_
    exact hsafe fault (copyShmBuffer_panics_iff.2 ⟨hok, rect, hrect, hrows⟩)
  · obtain ⟨hok, rect, hrect, hrows⟩ := copyShmBuffer_panics_iff.1 h
    exact (readRows_panics_iff hrect).2 (hin hok) fault hrows

/-- The checks of the copy alone do not keep its reads in the mapping: one pixel in a pool of one
byte. -/
example : checkedCopyShmBuffer (some ⟨0, 1, 1, 1, .argb8888, [0]⟩) 0 0 0 none =
    .error (.panicked .outOfBounds) := by
  decide

end ShmBuffer

/-! ## The buffers that there are -/

/-- What a client says about a buffer in `wl_shm_pool.create_buffer`. -/
structure BufferData where
  offset : Int32
  width : Int32
  height : Int32
  stride : Int32
  format : ShmFormat

def BufferData.over (data : BufferData) (memory : Bytes) : ShmBuffer :=
  { offset := data.offset, width := data.width, height := data.height, stride := data.stride
    format := data.format, memory }

/-- The formats that are always advertised; the compositor names no others. -/
def ShmFormat.Advertised (format : ShmFormat) : Prop := format = .argb8888 ∨ format = .xrgb8888

/-- What smithay promises about `create_buffer`, which makes a buffer in a pool of a size or refuses
the request: the format is an advertised one, and the stride is not less than the bytes of a row. -/
structure HoldsRows (createBuffer : BufferData → Nat → Bool) : Prop where
  format : ∀ data size, createBuffer data size = true → data.format.Advertised
  stride : ∀ data size, createBuffer data size = true → data.format.Advertised →
    data.width.toInt * 4 ≤ data.stride.toInt

namespace ShmBuffer

variable {b : ShmBuffer} {x y : Int32} {bounds : Option SurfaceBounds}

theorem viewEnd_le (size : Nat) (off : Int) (bound : Option Nat) : viewEnd size off bound ≤ size := by
  cases bound with
  | none => exact Nat.le_refl size
  | some bound => exact Nat.min_le_left _ _

/-- Where a row has room for its pixels, all of them lie in the mapping. -/
theorem Accepted.pixelEnd_le_length (h : b.Accepted x y bounds)
    (hstride : b.width.toInt * 4 ≤ b.stride.toInt) {sx sy : Nat} (hx : sx < b.rightEnd x bounds)
    (hy : sy < b.bottomEnd y bounds) : b.pixelEnd sx sy ≤ b.memory.length := by
  have hright : b.rightEnd x bounds ≤ b.width.toInt.toNat := viewEnd_le _ _ _
  have hbottom : b.bottomEnd y bounds ≤ b.height.toInt.toNat := viewEnd_le _ _ _
  have hlength := h.length
  have hrow : (sy + 1) * b.stride.toInt.toNat ≤ b.height.toInt.toNat * b.stride.toInt.toNat :=
    Nat.mul_le_mul_right _ (by omega)
  rw [Nat.succ_mul, Nat.mul_comm b.height.toInt.toNat] at hrow
  unfold pixelEnd
  omega

theorem Accepted.lastReadInside (h : b.Accepted x y bounds)
    (hstride : b.width.toInt * 4 ≤ b.stride.toInt) : b.LastReadInside x y bounds := by
  have hcolumns := h.columns
  have hrows := h.rows
  unfold LastReadInside
  split
  · exact h.pixelEnd_le_length hstride hcolumns hrows
  · exact h.pixelEnd_le_length hstride (by omega) (by omega)

end ShmBuffer

/-- No arithmetic overflows, whatever a client says; every pixel that is read of a buffer that smithay
has made lies in the mapping; so no client makes the copy panic. -/
theorem created_copy_safe {createBuffer : BufferData → Nat → Bool} (hsmithay : HoldsRows createBuffer)
    (data : BufferData) (size : Nat) (hcreated : createBuffer data size = true) (memory : Bytes)
    (id : UInt64) (x y : Int32) (bounds : Option SurfaceBounds) :
    (∀ b : ShmBuffer,
      checkedCopyShmBuffer (some b) id x y bounds ≠ .error (.panicked .overflow)) ∧
    ((data.over memory).Accepted x y bounds → ∀ sx sy,
      sx < (data.over memory).rightEnd x bounds → sy < (data.over memory).bottomEnd y bounds →
      (data.over memory).pixelEnd sx sy ≤ memory.length) ∧
    ∀ fault, checkedCopyShmBuffer (some (data.over memory)) id x y bounds ≠
      .error (.panicked fault) := by
  have hstride := hsmithay.stride data size hcreated (hsmithay.format data size hcreated)
  refine ⟨fun b => (ShmBuffer.copyShmBuffer_reads_iff b id x y bounds).1,
    fun haccepted sx sy hx hy => haccepted.pixelEnd_le_length hstride hx hy, ?_⟩
  exact (ShmBuffer.copyShmBuffer_reads_iff (data.over memory) id x y bounds).2.2
    fun haccepted => haccepted.lastReadInside hstride

/-- A `create_buffer` that keeps the promise. -/
def createWhole (data : BufferData) (size : Nat) : Bool :=
  decide (data.format = .argb8888 ∨ data.format = .xrgb8888) && decide (0 ≤ data.offset.toInt) &&
    decide (0 < data.width.toInt) && decide (0 < data.height.toInt) &&
    decide (data.width.toInt * 4 ≤ data.stride.toInt) &&
    decide (data.offset.toInt + data.stride.toInt * data.height.toInt ≤ size)

theorem holdsRows_createWhole : HoldsRows createWhole := by
  constructor
  · intro data size h
    simp only [createWhole, Bool.and_eq_true, decide_eq_true_eq] at h
    exact h.1.1.1.1.1
  · intro data size h _
    simp only [createWhole, Bool.and_eq_true, decide_eq_true_eq] at h
    exact h.1.2

/-- Two rows of two pixels, the window one pixel to the right of their left edge. -/
theorem created_copy_safe_clipped :
    let data : BufferData :=
      { offset := 4, width := 2, height := 2, stride := 12, format := .argb8888 }
    let memory := List.replicate 28 0
    (data.over memory).Accepted (-1) 0 none ∧ (data.over memory).pixelEnd 1 1 ≤ memory.length ∧
      ∀ fault, checkedCopyShmBuffer (some (data.over memory)) 1 (-1) 0 none ≠
        .error (.panicked fault) := by
  intro data memory
  have haccepted : (data.over memory).Accepted (-1) 0 none :=
    ⟨by decide, by decide, by decide, by decide, by decide, by decide, by decide, by decide⟩
  obtain ⟨-, hinside, hsafe⟩ := created_copy_safe holdsRows_createWhole data 28 (by decide) memory 1
    (-1) 0 none
  exact ⟨haccepted, hinside haccepted 1 1 (by decide) (by decide), hsafe⟩

end VBox
