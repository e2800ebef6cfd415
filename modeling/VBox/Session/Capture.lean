import VBox.Viewer.Frame

/-!
# Session.Capture

From a shared memory buffer to a tile (`crates/server/src/wayland_session/surface_capture.rs`). The
surface is clipped against the window, and the pixels of the rest are converted to RGBA.

`surfaceCopyRect_exact`: the part that is copied is the part in view, pixel by pixel.
-/

namespace VBox

open ByteCodec Raster

/-- The formats of `wl_shm` that are converted, and any other one. -/
inductive ShmFormat where
  | argb8888
  | xrgb8888
  | abgr8888
  | xbgr8888
  | other (code : UInt32)
  deriving DecidableEq

/-- A shared memory buffer as `with_buffer_contents` shows it: `memory` is the mapping of its pool,
the other fields are what the client said about the buffer. -/
structure ShmBuffer where
  offset : Int32
  width : Int32
  height : Int32
  stride : Int32
  format : ShmFormat
  memory : Bytes

structure SurfaceBounds where
  width : UInt32
  height : UInt32
  deriving DecidableEq

structure CopyRect where
  skipX : UInt32
  skipY : UInt32
  dstX : UInt32
  dstY : UInt32
  width : UInt32
  height : UInt32
  deriving DecidableEq

/-- `i32::unsigned_abs`. -/
def unsignedAbs (n : Int32) : UInt32 := UInt32.ofNat n.toInt.natAbs

/-- `n.max(0) as u32`. -/
def nonnegative (n : Int32) : UInt32 := UInt32.ofNat n.toInt.toNat

/-- The part of a surface at an offset that is not left of or above the origin, and inside the
bounds. -/
def surfaceCopyRectWithBounds (width height : UInt32) (offsetX offsetY : Int32)
    (bounds : Option SurfaceBounds) : Option CopyRect :=
  let skipX := if offsetX < 0 then unsignedAbs offsetX else 0
  let skipY := if offsetY < 0 then unsignedAbs offsetY else 0
  if width ≤ skipX ∨ height ≤ skipY then none
  else
    let dstX := nonnegative offsetX
    let dstY := nonnegative offsetY
    let copyWidth := width - skipX
    let copyHeight := height - skipY
    match bounds with
    | none => some { skipX, skipY, dstX, dstY, width := copyWidth, height := copyHeight }
    | some bounds =>
      if bounds.width = 0 ∨ bounds.height = 0 then none
      else if bounds.width ≤ dstX ∨ bounds.height ≤ dstY then none
      else
        let copyWidth := min copyWidth (bounds.width - dstX)
        let copyHeight := min copyHeight (bounds.height - dstY)
        if copyWidth = 0 ∨ copyHeight = 0 then none
        else some { skipX, skipY, dstX, dstY, width := copyWidth, height := copyHeight }

/-- The colour of four bytes, as red, green, blue and alpha. -/
def convertShmPixel (format : ShmFormat) (p0 p1 p2 p3 : UInt8) : Option Bytes :=
  match format with
  | .argb8888 => some [p2, p1, p0, p3]
  | .xrgb8888 => some [p2, p1, p0, 255]
  | .abgr8888 => some [p0, p1, p2, p3]
  | .xbgr8888 => some [p0, p1, p2, 255]
  | .other _ => none

/-- Why there is no result: the buffer is refused, with an error, or the copy panics. -/
inductive CopyError where
  /-- It is no shared memory buffer, or its pool is gone. -/
  | access
  | invalidData
  | strideOverflow
  | tooShort (len minLen : Nat)
  | unsupportedFormat (format : ShmFormat)
  | panicked (fault : Fault)
  deriving DecidableEq

namespace ShmBuffer

/-- The pixel at a column and a row, which reads four bytes of the mapping. -/
def readPixel (b : ShmBuffer) (x y : Nat) : Except CopyError Bytes :=
  let px := b.offset.toInt.toNat + y * b.stride.toInt.toNat + x * 4
  match b.memory[px]?, b.memory[px + 1]?, b.memory[px + 2]?, b.memory[px + 3]? with
  | some p0, some p1, some p2, some p3 =>
    match convertShmPixel b.format p0 p1 p2 p3 with
    | some rgba => .ok rgba
    | none => .error (.unsupportedFormat b.format)
  | _, _, _, _ => .error (.panicked .outOfBounds)

def readRow (b : ShmBuffer) (rect : CopyRect) (y : Nat) : Except CopyError Bytes := do
  let pixels ← (List.range rect.width.toNat).mapM fun x =>
    b.readPixel (rect.skipX.toNat + x) (rect.skipY.toNat + y)
  return pixels.flatten

/-- The bytes of the tile: its rows follow each other without gaps. -/
def readRows (b : ShmBuffer) (rect : CopyRect) : Except CopyError Bytes := do
  let rows ← (List.range rect.height.toNat).mapM (b.readRow rect)
  return rows.flatten

end ShmBuffer

def copyShmBufferWithBounds (buffer : Option ShmBuffer) (id : UInt64) (offsetX offsetY : Int32)
    (bounds : Option SurfaceBounds) : Except CopyError (Option FrameTile) :=
  match buffer with
  | none => .error .access
  | some b =>
    if b.offset < 0 ∨ b.width ≤ 0 ∨ b.height ≤ 0 ∨ b.stride ≤ 0 then .error .invalidData
    else
      match surfaceCopyRectWithBounds (nonnegative b.width) (nonnegative b.height) offsetX offsetY
        bounds with
      | none => .ok none
      | some rect =>
        if 2 ^ 32 ≤ rect.width.toNat * 4 then .error .strideOverflow
        else
          -- the sum and the product are far below the limit of a `usize`
          let minLen := b.offset.toInt.toNat + b.stride.toInt.toNat * b.height.toInt.toNat
          if b.memory.length < minLen then .error (.tooShort b.memory.length minLen)
          else
            match b.readRows rect with
            | .error e => .error e
            | .ok bytes =>
              .ok (some
                { id, x := rect.dstX, y := rect.dstY, w := rect.width, h := rect.height,
                  stride := rect.width * 4, encoding := .rawRgba, bytes })

def copyShmBuffer (buffer : Option ShmBuffer) (id : UInt64) (offsetX offsetY : Int32) :
    Except CopyError (Option FrameTile) :=
  copyShmBufferWithBounds buffer id offsetX offsetY none

def copyShmBufferClipped (buffer : Option ShmBuffer) (id : UInt64) (offsetX offsetY : Int32)
    (bounds : SurfaceBounds) : Except CopyError (Option FrameTile) :=
  copyShmBufferWithBounds buffer id offsetX offsetY (some bounds)

/-! ## The part inside a window -/

theorem toNat_max (a b : UInt32) : (max a b).toNat = max a.toNat b.toNat := by
  show (if a ≤ b then b else a).toNat = _
  simp only [UInt32.le_iff_toNat_le]
  split <;> omega

theorem toNat_min (a b : UInt32) : (min a b).toNat = min a.toNat b.toNat := by
  show (if a ≤ b then a else b).toNat = _
  simp only [UInt32.le_iff_toNat_le]
  split <;> omega

theorem toNat_unsignedAbs (n : Int32) : (unsignedAbs n).toNat = n.toInt.natAbs := by
  have hlt := n.toInt_lt
  have hle := n.le_toInt
  rw [unsignedAbs, UInt32.toNat_ofNat']
  omega

theorem toNat_nonnegative (n : Int32) : (nonnegative n).toNat = n.toInt.toNat := by
  have hlt := n.toInt_lt
  rw [nonnegative, UInt32.toNat_ofNat']
  omega

/-- How much of a surface is cut off at the left or the top. -/
theorem toNat_skip (offset : Int32) :
    (if offset < 0 then unsignedAbs offset else 0).toNat = (-offset.toInt).toNat := by
  have hzero : (0 : Int32).toInt = 0 := rfl
  split
  · rename_i hneg
    rw [Int32.lt_iff_toInt_lt, hzero] at hneg
    rw [toNat_unsignedAbs]
    omega
  · rename_i hpos
    rw [Int32.lt_iff_toInt_lt, hzero] at hpos
    show 0 = _
    omega

/-- The rectangle of a surface at an offset and the window have a pixel in common. -/
def Intersects (width height : UInt32) (x y : Int32) (bounds : SurfaceBounds) : Prop :=
  max x.toInt 0 < min (x.toInt + width.toNat) bounds.width.toNat ∧
    max y.toInt 0 < min (y.toInt + height.toNat) bounds.height.toNat

instance (width height : UInt32) (x y : Int32) (bounds : SurfaceBounds) :
    Decidable (Intersects width height x y bounds) := inferInstanceAs (Decidable (_ ∧ _))

/-- How much of a surface is copied: what is not cut off at the left and the top, and of that no more
than the bounds have room for. -/
structure CopyRect.Clipped (rect : CopyRect) (width height : UInt32) (x y : Int32)
    (bounds : Option SurfaceBounds) : Prop where
  skipX : rect.skipX.toNat = (-x.toInt).toNat
  skipY : rect.skipY.toNat = (-y.toInt).toNat
  dstX : rect.dstX = nonnegative x
  dstY : rect.dstY = nonnegative y
  left : rect.skipX.toNat < width.toNat
  top : rect.skipY.toNat < height.toNat
  unbounded : bounds = none → rect.width.toNat = width.toNat - rect.skipX.toNat ∧
    rect.height.toNat = height.toNat - rect.skipY.toNat
  bounded : ∀ b, bounds = some b → rect.dstX.toNat < b.width.toNat ∧
    rect.dstY.toNat < b.height.toNat ∧
    rect.width.toNat = min (width.toNat - rect.skipX.toNat) (b.width.toNat - rect.dstX.toNat) ∧
    rect.height.toNat = min (height.toNat - rect.skipY.toNat) (b.height.toNat - rect.dstY.toNat)

theorem surfaceCopyRect_clipped {width height : UInt32} {x y : Int32}
    {bounds : Option SurfaceBounds} {rect : CopyRect}
    (h : surfaceCopyRectWithBounds width height x y bounds = some rect) :
    rect.Clipped width height x y bounds := by
  simp only [surfaceCopyRectWithBounds] at h
  have hskipX := toNat_skip x
  have hskipY := toNat_skip y
  generalize (if x < 0 then unsignedAbs x else 0) = skipX at h hskipX
  generalize (if y < 0 then unsignedAbs y else 0) = skipY at h hskipY
  split at h
  · cases h
  rename_i hsize
  simp only [not_or, UInt32.not_le] at hsize
  have hw := UInt32.toNat_sub_of_le _ _ (UInt32.le_of_lt hsize.1)
  have hh := UInt32.toNat_sub_of_le _ _ (UInt32.le_of_lt hsize.2)
  rw [UInt32.lt_iff_toNat_lt, UInt32.lt_iff_toNat_lt] at hsize
  split at h
  · cases h
    exact ⟨hskipX, hskipY, rfl, rfl, hsize.1, hsize.2, fun _ => ⟨hw, hh⟩, fun _ hb => (nomatch hb)⟩
  · split at h
    · cases h
    split at h
    · cases h
    rename_i hdst
    simp only [not_or, UInt32.not_le] at hdst
    have hbw := UInt32.toNat_sub_of_le _ _ (UInt32.le_of_lt hdst.1)
    have hbh := UInt32.toNat_sub_of_le _ _ (UInt32.le_of_lt hdst.2)
    rw [UInt32.lt_iff_toNat_lt, UInt32.lt_iff_toNat_lt] at hdst
    split at h
    · cases h
    cases h
    refine ⟨hskipX, hskipY, rfl, rfl, hsize.1, hsize.2, fun hb => (nomatch hb), fun b hb => ?_⟩
    cases hb
    refine ⟨hdst.1, hdst.2, ?_, ?_⟩
    · rw [toNat_min, hw, hbw]
    · rw [toNat_min, hh, hbh]

/-- What is copied is not empty. -/
theorem CopyRect.Clipped.extent_pos {width height : UInt32} {x y : Int32}
    {bounds : Option SurfaceBounds} {rect : CopyRect} (h : rect.Clipped width height x y bounds) :
    0 < rect.width.toNat ∧ 0 < rect.height.toNat := by
  have hleft := h.left
  have htop := h.top
  cases bounds with
  | none =>
    obtain ⟨hw, hh⟩ := h.unbounded rfl
    omega
  | some b =>
    obtain ⟨hdstX, hdstY, hw, hh⟩ := h.bounded b rfl
    omega

/-- What is copied lies in the surface and in the window. -/
structure CopyRect.Within (rect : CopyRect) (width height : UInt32) (x y : Int32)
    (bounds : Option SurfaceBounds) : Prop where
  dstX : rect.dstX = nonnegative x
  dstY : rect.dstY = nonnegative y
  right : rect.skipX.toNat + rect.width.toNat ≤ width.toNat
  bottom : rect.skipY.toNat + rect.height.toNat ≤ height.toNat
  bounds : ∀ b, bounds = some b → rect.dstX.toNat + rect.width.toNat ≤ b.width.toNat ∧
    rect.dstY.toNat + rect.height.toNat ≤ b.height.toNat

theorem surfaceCopyRect_within {width height : UInt32} {x y : Int32} {bounds : Option SurfaceBounds}
    {rect : CopyRect} (h : surfaceCopyRectWithBounds width height x y bounds = some rect) :
    rect.Within width height x y bounds := by
  have hclip := surfaceCopyRect_clipped h
  have hleft := hclip.left
  have htop := hclip.top
  cases bounds with
  | none =>
    obtain ⟨hw, hh⟩ := hclip.unbounded rfl
    exact ⟨hclip.dstX, hclip.dstY, by omega, by omega, fun _ hb => (nomatch hb)⟩
  | some b =>
    obtain ⟨hdstX, hdstY, hw, hh⟩ := hclip.bounded b rfl
    refine ⟨hclip.dstX, hclip.dstY, by omega, by omega, fun _ hb => ?_⟩
    cases hb
    omega

/-- One axis of a surface that is partly inside. -/
theorem copyExtent_pos {size skip bound : UInt32} {offset : Int32}
    (hskip : skip.toNat = (-offset.toInt).toNat)
    (h : max offset.toInt 0 < min (offset.toInt + size.toNat) bound.toNat) :
    ¬ size ≤ skip ∧ ¬ bound = 0 ∧ ¬ bound ≤ nonnegative offset ∧
      ¬ min (size - skip) (bound - nonnegative offset) = 0 := by
  have hdst := toNat_nonnegative offset
  have hzero : (0 : UInt32).toNat = 0 := rfl
  have hlt : skip < size := by rw [UInt32.lt_iff_toNat_lt]; omega
  have hin : nonnegative offset < bound := by rw [UInt32.lt_iff_toNat_lt]; omega
  have hsize := UInt32.toNat_sub_of_le _ _ (UInt32.le_of_lt hlt)
  have hbound := UInt32.toNat_sub_of_le _ _ (UInt32.le_of_lt hin)
  refine ⟨UInt32.not_le.2 hlt, ?_, UInt32.not_le.2 hin, ?_⟩
  · rw [← UInt32.toNat_inj, hzero]
    omega
  · rw [UInt32.lt_iff_toNat_lt] at hlt hin
    rw [← UInt32.toNat_inj, toNat_min, hsize, hbound, hzero]
    omega

theorem surfaceCopyRect_of_intersects {width height : UInt32} {x y : Int32} {bounds : SurfaceBounds}
    (h : Intersects width height x y bounds) :
    ∃ rect, surfaceCopyRectWithBounds width height x y (some bounds) = some rect := by
  obtain ⟨hw, hbw, hdw, hcw⟩ := copyExtent_pos (toNat_skip x) h.1
  obtain ⟨hh, hbh, hdh, hch⟩ := copyExtent_pos (toNat_skip y) h.2
  simp only [surfaceCopyRectWithBounds]
  rw [if_neg (not_or.2 ⟨hw, hh⟩), if_neg (not_or.2 ⟨hbw, hbh⟩), if_neg (not_or.2 ⟨hdw, hdh⟩),
    if_neg (not_or.2 ⟨hcw, hch⟩)]
  exact ⟨_, rfl⟩

/-- The place where a position of a surface at an offset is shown: not left of or above the origin,
and inside the bounds. -/
structure Lands (width height : UInt32) (x y : Int32) (bounds : Option SurfaceBounds)
    (sx sy i j : Nat) : Prop where
  column : sx < width.toNat
  row : sy < height.toNat
  left : (i : Int) = x.toInt + sx
  top : (j : Int) = y.toInt + sy
  inside : ∀ b, bounds = some b → i < b.width.toNat ∧ j < b.height.toNat

section Axis

variable {size skip dst s i : Nat} {offset : Int}

/-- One axis of the copied part, without bounds. -/
theorem axis_lands_iff (hskip : skip = (-offset).toNat) (hdst : dst = offset.toNat)
    (hsize : skip < size) :
    s < size ∧ (i : Int) = offset + s ↔
      dst ≤ i ∧ i < dst + (size - skip) ∧ s = skip + (i - dst) := by
  omega

/-- One axis of the copied part, inside the bounds. -/
theorem axis_lands_inside_iff {bound : Nat} (hskip : skip = (-offset).toNat)
    (hdst : dst = offset.toNat) (hsize : skip < size) (hbound : dst < bound) :
    (s < size ∧ (i : Int) = offset + s) ∧ i < bound ↔
      dst ≤ i ∧ i < dst + min (size - skip) (bound - dst) ∧ s = skip + (i - dst) := by
  rw [axis_lands_iff hskip hdst hsize]
  omega

end Axis

theorem lands_iff_axes {width height : UInt32} {x y : Int32} {bounds : Option SurfaceBounds}
    {sx sy i j : Nat} :
    Lands width height x y bounds sx sy i j ↔
      (sx < width.toNat ∧ (i : Int) = x.toInt + sx) ∧ (sy < height.toNat ∧ (j : Int) = y.toInt + sy) ∧
        ∀ b, bounds = some b → i < b.width.toNat ∧ j < b.height.toNat := by
  constructor
  · rintro ⟨hcol, hrow, hleft, htop, hin⟩
    exact ⟨⟨hcol, hleft⟩, ⟨hrow, htop⟩, hin⟩
  · rintro ⟨⟨hcol, hleft⟩, ⟨hrow, htop⟩, hin⟩
    exact ⟨hcol, hrow, hleft, htop, hin⟩

/-- A place of the copied part, and the place of the surface it shows. -/
theorem lands_iff {width height : UInt32} {x y : Int32} {bounds : Option SurfaceBounds}
    {rect : CopyRect} (h : surfaceCopyRectWithBounds width height x y bounds = some rect)
    {sx sy i j : Nat} :
    Lands width height x y bounds sx sy i j ↔
      (rect.dstX.toNat ≤ i ∧ i < rect.dstX.toNat + rect.width.toNat ∧
        sx = rect.skipX.toNat + (i - rect.dstX.toNat)) ∧
      (rect.dstY.toNat ≤ j ∧ j < rect.dstY.toNat + rect.height.toNat ∧
        sy = rect.skipY.toNat + (j - rect.dstY.toNat)) := by
  have hclip := surfaceCopyRect_clipped h
  have hdstX : rect.dstX.toNat = x.toInt.toNat := by rw [hclip.dstX, toNat_nonnegative]
  have hdstY : rect.dstY.toNat = y.toInt.toNat := by rw [hclip.dstY, toNat_nonnegative]
  rw [lands_iff_axes]
  cases bounds with
  | none =>
    obtain ⟨hw, hh⟩ := hclip.unbounded rfl
    simp only [hw, hh, reduceCtorEq, false_imp_iff, implies_true, and_true]
    exact and_congr (axis_lands_iff hclip.skipX hdstX hclip.left)
      (axis_lands_iff hclip.skipY hdstY hclip.top)
  | some b =>
    obtain ⟨hrightX, hbottomY, hw, hh⟩ := hclip.bounded b rfl
    simp only [hw, hh, Option.some.injEq, forall_eq']
    rw [← axis_lands_inside_iff hclip.skipX hdstX hclip.left hrightX,
      ← axis_lands_inside_iff hclip.skipY hdstY hclip.top hbottomY]
    tauto

theorem not_lands_of_none {width height : UInt32} {x y : Int32} {bounds : Option SurfaceBounds}
    (h : surfaceCopyRectWithBounds width height x y bounds = none) {sx sy i j : Nat} :
    ¬ Lands width height x y bounds sx sy i j := by
  rintro ⟨hcol, hrow, hleft, htop, hin⟩
  have hskipX := toNat_skip x
  have hskipY := toNat_skip y
  simp only [surfaceCopyRectWithBounds] at h
  cases bounds with
  | none =>
    generalize (if x < 0 then unsignedAbs x else 0) = skipX at h hskipX
    generalize (if y < 0 then unsignedAbs y else 0) = skipY at h hskipY
    split at h
    · rename_i hsize
      simp only [UInt32.le_iff_toNat_le] at hsize
      omega
    · cases h
  | some b =>
    have hb := hin b rfl
    have hinter : Intersects width height x y b := by
      constructor <;> omega
    obtain ⟨rect, hrect⟩ := surfaceCopyRect_of_intersects hinter
    simp only [surfaceCopyRectWithBounds] at hrect
    rw [h] at hrect
    cases hrect

/-! ### Exactly the intersection -/

def u32Sub (a b : UInt32) : Except Fault UInt32 := if b ≤ a then .ok (a - b) else .error .overflow

theorem u32Sub_ok {a b : UInt32} (h : b ≤ a) : u32Sub a b = .ok (a - b) := if_pos h

/-- `surface_copy_rect_with_bounds` where every difference is checked. -/
def checkedSurfaceCopyRect (width height : UInt32) (offsetX offsetY : Int32)
    (bounds : Option SurfaceBounds) : Except Fault (Option CopyRect) :=
  let skipX := if offsetX < 0 then unsignedAbs offsetX else 0
  let skipY := if offsetY < 0 then unsignedAbs offsetY else 0
  if width ≤ skipX ∨ height ≤ skipY then .ok none
  else do
    let dstX := nonnegative offsetX
    let dstY := nonnegative offsetY
    let copyWidth ← u32Sub width skipX
    let copyHeight ← u32Sub height skipY
    match bounds with
    | none => return some { skipX, skipY, dstX, dstY, width := copyWidth, height := copyHeight }
    | some bounds =>
      if bounds.width = 0 ∨ bounds.height = 0 then return none
      else if bounds.width ≤ dstX ∨ bounds.height ≤ dstY then return none
      else do
        let boundWidth ← u32Sub bounds.width dstX
        let boundHeight ← u32Sub bounds.height dstY
        let copyWidth := min copyWidth boundWidth
        let copyHeight := min copyHeight boundHeight
        if copyWidth = 0 ∨ copyHeight = 0 then return none
        else return some { skipX, skipY, dstX, dstY, width := copyWidth, height := copyHeight }

theorem checkedSurfaceCopyRect_eq (width height : UInt32) (x y : Int32)
    (bounds : Option SurfaceBounds) :
    checkedSurfaceCopyRect width height x y bounds =
      .ok (surfaceCopyRectWithBounds width height x y bounds) := by
  simp only [checkedSurfaceCopyRect, surfaceCopyRectWithBounds]
  generalize (if x < 0 then unsignedAbs x else 0) = skipX
  generalize (if y < 0 then unsignedAbs y else 0) = skipY
  split
  · rfl
  rename_i hsize
  simp only [not_or, UInt32.not_le] at hsize
  rw [u32Sub_ok (UInt32.le_of_lt hsize.1), u32Sub_ok (UInt32.le_of_lt hsize.2)]
  cases bounds with
  | none => rfl
  | some b =>
    simp only [bind, Except.bind]
    split
    · rfl
    split
    · rfl
    rename_i hdst
    simp only [not_or, UInt32.not_le] at hdst
    rw [u32Sub_ok (UInt32.le_of_lt hdst.1), u32Sub_ok (UInt32.le_of_lt hdst.2)]
    simp only
    split <;> rfl

/-- A pixel of the surface that is shown: its place is not left of or above the origin, and inside
the bounds. -/
def InView (width height : UInt32) (x y : Int32) (bounds : Option SurfaceBounds) (sx sy : Nat) :
    Prop :=
  sx < width.toNat ∧ sy < height.toNat ∧ 0 ≤ x.toInt + sx ∧ 0 ≤ y.toInt + sy ∧
    ∀ b, bounds = some b → x.toInt + sx < b.width.toNat ∧ y.toInt + sy < b.height.toNat

/-- A pixel of the surface that is copied. -/
def CopyRect.Copies (rect : CopyRect) (sx sy : Nat) : Prop :=
  (rect.skipX.toNat ≤ sx ∧ sx < rect.skipX.toNat + rect.width.toNat) ∧
    rect.skipY.toNat ≤ sy ∧ sy < rect.skipY.toNat + rect.height.toNat

theorem inView_iff_lands {width height : UInt32} {x y : Int32} {bounds : Option SurfaceBounds}
    {sx sy : Nat} :
    InView width height x y bounds sx sy ↔ ∃ i j, Lands width height x y bounds sx sy i j := by
  constructor
  · rintro ⟨hcol, hrow, hleft, htop, hin⟩
    refine ⟨(x.toInt + sx).toNat, (y.toInt + sy).toNat, hcol, hrow, by omega, by omega, ?_⟩
    intro b hb
    have := hin b hb
    omega
  · rintro ⟨i, j, hcol, hrow, hleft, htop, hin⟩
    refine ⟨hcol, hrow, by omega, by omega, fun b hb => ?_⟩
    have := hin b hb
    omega

/-- The pixel of the surface that is copied to a place lands there. -/
theorem copies_iff_lands {width height : UInt32} {x y : Int32} {bounds : Option SurfaceBounds}
    {rect : CopyRect} (h : surfaceCopyRectWithBounds width height x y bounds = some rect)
    {sx sy : Nat} :
    rect.Copies sx sy ↔ ∃ i j, Lands width height x y bounds sx sy i j := by
  simp only [lands_iff h]
  constructor
  · rintro ⟨hx, hy⟩
    exact ⟨rect.dstX.toNat + (sx - rect.skipX.toNat), rect.dstY.toNat + (sy - rect.skipY.toNat),
      by omega, by omega⟩
  · rintro ⟨i, j, hx, hy⟩
    exact ⟨by omega, by omega⟩

/-- The clipping does not overflow, and what is copied is exactly what is shown. -/
theorem surfaceCopyRect_exact (width height : UInt32) (x y : Int32)
    (bounds : Option SurfaceBounds) :
    ∃ result, checkedSurfaceCopyRect width height x y bounds = .ok result ∧
      surfaceCopyRectWithBounds width height x y bounds = result ∧
      (result.isSome ↔ ∃ sx sy, InView width height x y bounds sx sy) ∧
      ∀ rect, result = some rect → ∀ sx sy,
        (rect.Copies sx sy ↔ InView width height x y bounds sx sy) ∧
        (rect.Copies sx sy →
          (rect.dstX.toNat + (sx - rect.skipX.toNat) : Int) = x.toInt + sx ∧
          (rect.dstY.toNat + (sy - rect.skipY.toNat) : Int) = y.toInt + sy) := by
  refine ⟨_, checkedSurfaceCopyRect_eq width height x y bounds, rfl, ?_, fun rect h sx sy => ?_⟩
  · cases h : surfaceCopyRectWithBounds width height x y bounds with
    | none =>
      simp only [Option.isSome_none, Bool.false_eq_true, false_iff, not_exists]
      intro sx sy hview
      obtain ⟨i, j, hlands⟩ := inView_iff_lands.mp hview
      exact not_lands_of_none h hlands
    | some rect =>
      simp only [Option.isSome_some, true_iff]
      obtain ⟨hw, hh⟩ := (surfaceCopyRect_clipped h).extent_pos
      refine ⟨rect.skipX.toNat, rect.skipY.toNat, inView_iff_lands.mpr ?_⟩
      rw [← copies_iff_lands h]
      exact ⟨⟨Nat.le_refl _, by omega⟩, Nat.le_refl _, by omega⟩
  · refine ⟨(copies_iff_lands h).trans inView_iff_lands.symm, fun hcopies => ?_⟩
    obtain ⟨i, j, hlands⟩ := (copies_iff_lands h).mp hcopies
    obtain ⟨hx, hy⟩ := (lands_iff h).mp hlands
    have hleft := hlands.left
    have htop := hlands.top
    omega

/-! ## Buffers that can be read -/

/-- What the formats and the checks of `copy_shm_buffer` ask of a buffer, with rows that hold their
pixels. -/
structure ShmBuffer.Valid (b : ShmBuffer) : Prop where
  offset : 0 ≤ b.offset.toInt
  width : 0 < b.width.toInt
  height : 0 < b.height.toInt
  stride : b.width.toInt * 4 ≤ b.stride.toInt
  memory : b.offset.toInt.toNat + b.stride.toInt.toNat * b.height.toInt.toNat ≤ b.memory.length
  format : ∀ code, b.format ≠ .other code

namespace ShmBuffer

/-- A byte of a pixel, as the mapping holds it. -/
def byte (b : ShmBuffer) (x y k : Nat) : UInt8 :=
  b.memory.getD (b.offset.toInt.toNat + y * b.stride.toInt.toNat + x * 4 + k) 0

def red (b : ShmBuffer) (x y : Nat) : UInt8 :=
  match b.format with
  | .argb8888 | .xrgb8888 => b.byte x y 2
  | _ => b.byte x y 0

def green (b : ShmBuffer) (x y : Nat) : UInt8 := b.byte x y 1

def blue (b : ShmBuffer) (x y : Nat) : UInt8 :=
  match b.format with
  | .argb8888 | .xrgb8888 => b.byte x y 0
  | _ => b.byte x y 2

/-- The formats without alpha are opaque. -/
def alpha (b : ShmBuffer) (x y : Nat) : UInt8 :=
  match b.format with
  | .argb8888 | .abgr8888 => b.byte x y 3
  | _ => 255

def rgba (b : ShmBuffer) (x y : Nat) : Bytes := [b.red x y, b.green x y, b.blue x y, b.alpha x y]

/-- The pixel as `0xAARRGGBB`. -/
def argb (b : ShmBuffer) (x y : Nat) : UInt32 :=
  UInt32.ofNat ((b.alpha x y).toNat * 2 ^ 24 + (b.red x y).toNat * 2 ^ 16 +
    (b.green x y).toNat * 2 ^ 8 + (b.blue x y).toNat)

variable {b : ShmBuffer}

theorem Valid.readPixel_eq (hb : b.Valid) {x y : Nat} (hx : x < b.width.toInt.toNat)
    (hy : y < b.height.toInt.toNat) : b.readPixel x y = .ok (b.rgba x y) := by
  have hmemory := hb.memory
  have hstride := hb.stride
  have hrow : (y + 1) * b.stride.toInt.toNat ≤ b.height.toInt.toNat * b.stride.toInt.toNat :=
    Nat.mul_le_mul_right _ hy
  rw [Nat.succ_mul] at hrow
  rw [Nat.mul_comm] at hmemory
  have hread : ∀ k, k < 4 →
      b.memory[b.offset.toInt.toNat + y * b.stride.toInt.toNat + x * 4 + k]? =
        some (b.byte x y k) := by
    intro k hk
    rw [byte, List.getD_eq_getElem?_getD, List.getElem?_eq_getElem (by omega)]
    rfl
  have hfirst := hread 0 (by omega)
  rw [Nat.add_zero] at hfirst
  simp only [ShmBuffer.readPixel, hfirst, hread 1 (by omega), hread 2 (by omega),
    hread 3 (by omega), rgba, red, green, blue, alpha]
  cases hformat : b.format with
  | other code => exact absurd hformat (hb.format code)
  | _ => rfl

theorem Valid.readRows_eq (hb : b.Valid) {rect : CopyRect}
    (hright : rect.skipX.toNat + rect.width.toNat ≤ b.width.toInt.toNat)
    (hbottom : rect.skipY.toNat + rect.height.toNat ≤ b.height.toInt.toNat) :
    b.readRows rect = .ok ((List.range rect.height.toNat).map fun y =>
      ((List.range rect.width.toNat).map fun x =>
        b.rgba (rect.skipX.toNat + x) (rect.skipY.toNat + y)).flatten).flatten := by
  have hrow : ∀ y ∈ List.range rect.height.toNat, b.readRow rect y =
      .ok ((List.range rect.width.toNat).map fun x =>
        b.rgba (rect.skipX.toNat + x) (rect.skipY.toNat + y)).flatten := by
    intro y hy
    rw [List.mem_range] at hy
    rw [readRow, mapM_eq fun x hx =>
      hb.readPixel_eq (by rw [List.mem_range] at hx; omega) (by omega)]
    rfl
  rw [ShmBuffer.readRows, mapM_eq hrow]
  rfl

/-- The bytes of a part of a buffer are the colours of its pixels. -/
theorem Valid.getElem?_readRows (hb : b.Valid) {rect : CopyRect} {bytes : Bytes}
    (hright : rect.skipX.toNat + rect.width.toNat ≤ b.width.toInt.toNat)
    (hbottom : rect.skipY.toNat + rect.height.toNat ≤ b.height.toInt.toNat)
    (h : b.readRows rect = .ok bytes) {row col k : Nat} (hrow : row < rect.height.toNat)
    (hcol : col < rect.width.toNat) (hk : k < 4) :
    bytes[row * (rect.width.toNat * 4) + col * 4 + k]? =
      (b.rgba (rect.skipX.toNat + col) (rect.skipY.toNat + row))[k]? := by
  rw [hb.readRows_eq hright hbottom] at h
  cases h
  have hpixels : ∀ y, ∀ p ∈ (List.range rect.width.toNat).map fun x =>
      b.rgba (rect.skipX.toNat + x) (rect.skipY.toNat + y), p.length = 4 := by
    intro y p hp
    obtain ⟨x, -, rfl⟩ := List.mem_map.1 hp
    rfl
  rw [Nat.add_assoc, getElem?_flatten ?_ (by omega)]
  · simp only [List.getElem?_map, List.getElem?_range hrow, Option.map_some, Option.bind_some]
    rw [getElem?_flatten (hpixels row) hk]
    simp only [List.getElem?_map, List.getElem?_range hcol, Option.map_some, Option.bind_some]
  · intro r hr
    obtain ⟨y, -, rfl⟩ := List.mem_map.1 hr
    rw [length_flatten (hpixels y), List.length_map, List.length_range]

/-- However a copy came about, it has four bytes for each of its pixels. -/
theorem readRows_length {rect : CopyRect} {bytes : Bytes} (h : b.readRows rect = .ok bytes) :
    bytes.length = rect.width.toNat * 4 * rect.height.toNat := by
  have hpixel : ∀ x y p, b.readPixel x y = .ok p → p.length = 4 := by
    intro x y p hp
    simp only [ShmBuffer.readPixel] at hp
    split at hp
    · split at hp
      · rename_i hconvert
        cases hp
        unfold convertShmPixel at hconvert
        split at hconvert <;> cases hconvert <;> rfl
      · cases hp
    · cases hp
  have hrow : ∀ y r, b.readRow rect y = .ok r → r.length = rect.width.toNat * 4 := by
    intro y r hr
    obtain ⟨pixels, hpixels, hr⟩ := bind_eq_ok.1 hr
    cases hr
    obtain ⟨hlen, hmem⟩ := mapM_spec hpixels
    rw [length_flatten fun p hp => ?_, hlen, List.length_range]
    obtain ⟨x, -, hx⟩ := hmem p hp
    exact hpixel _ _ p hx
  obtain ⟨rows, hrows, h⟩ := bind_eq_ok.1 h
  cases h
  obtain ⟨hlen, hmem⟩ := mapM_spec hrows
  rw [length_flatten fun r hr => ?_, hlen, List.length_range, Nat.mul_comm]
  obtain ⟨y, -, hy⟩ := hmem r hr
  exact hrow y r hy

end ShmBuffer

/-- A tile of a buffer, all but its bytes. -/
def CopyRect.tile (rect : CopyRect) (id : UInt64) (bytes : Bytes) : FrameTile :=
  { id, x := rect.dstX, y := rect.dstY, w := rect.width, h := rect.height, stride := rect.width * 4,
    encoding := .rawRgba, bytes }

/-- Every tile is a part of its buffer. -/
theorem copyShmBuffer_tile {buffer : Option ShmBuffer} {id : UInt64} {x y : Int32}
    {bounds : Option SurfaceBounds} {tile : FrameTile}
    (h : copyShmBufferWithBounds buffer id x y bounds = .ok (some tile)) :
    ∃ b rect bytes, buffer = some b ∧
      surfaceCopyRectWithBounds (nonnegative b.width) (nonnegative b.height) x y bounds =
        some rect ∧ b.readRows rect = .ok bytes ∧ rect.width.toNat * 4 < 2 ^ 32 ∧
      tile = rect.tile id bytes := by
  simp only [copyShmBufferWithBounds] at h
  split at h
  · cases h
  rename_i b
  split at h
  · cases h
  split at h
  · cases h
  rename_i rect hrect
  split at h
  · cases h
  rename_i hstride
  split at h
  · cases h
  split at h
  · cases h
  rename_i bytes hbytes
  cases h
  exact ⟨b, rect, bytes, rfl, hrect, hbytes, by omega, rfl⟩

theorem tile_id_of_copy {buffer : Option ShmBuffer} {id : UInt64} {x y : Int32}
    {bounds : Option SurfaceBounds} {tile : FrameTile}
    (h : copyShmBufferWithBounds buffer id x y bounds = .ok (some tile)) : tile.id = id := by
  obtain ⟨b, rect, bytes, -, -, -, -, rfl⟩ := copyShmBuffer_tile h
  rfl

section Valid

variable {b : ShmBuffer} (hb : b.Valid) (id : UInt64) {x y : Int32} {bounds : Option SurfaceBounds}

include hb

theorem not_invalidData_of_valid : ¬ (b.offset < 0 ∨ b.width ≤ 0 ∨ b.height ≤ 0 ∨ b.stride ≤ 0) := by
  have hzero : (0 : Int32).toInt = 0 := rfl
  have hoffset := hb.offset
  have hwidth := hb.width
  have hheight := hb.height
  have hstride := hb.stride
  simp only [Int32.lt_iff_toInt_lt, Int32.le_iff_toInt_le, hzero]
  omega

/-- No part of a valid buffer is too wide for its stride. -/
theorem copyStride_lt {rect : CopyRect}
    (hrect : surfaceCopyRectWithBounds (nonnegative b.width) (nonnegative b.height) x y bounds =
      some rect) : rect.width.toNat * 4 < 2 ^ 32 := by
  have hright := (surfaceCopyRect_within hrect).right
  have hstride := hb.stride
  have hlt := b.stride.toInt_lt
  rw [toNat_nonnegative] at hright
  omega

/-- A valid buffer is copied where it is inside. -/
theorem copyShmBuffer_of_valid {rect : CopyRect}
    (hrect : surfaceCopyRectWithBounds (nonnegative b.width) (nonnegative b.height) x y bounds =
      some rect) :
    ∃ bytes, b.readRows rect = .ok bytes ∧
      copyShmBufferWithBounds (some b) id x y bounds = .ok (some (rect.tile id bytes)) := by
  have hwithin := surfaceCopyRect_within hrect
  have hmemory := hb.memory
  have hright := hwithin.right
  have hbottom := hwithin.bottom
  have hlt := copyStride_lt hb hrect
  rw [toNat_nonnegative] at hright hbottom
  have hbytes := hb.readRows_eq hright hbottom
  refine ⟨_, hbytes, ?_⟩
  simp only [copyShmBufferWithBounds]
  rw [if_neg (not_invalidData_of_valid hb)]
  simp only [hrect]
  rw [if_neg (by omega), if_neg (by omega), hbytes]
  rfl

theorem copyShmBuffer_of_none
    (hrect : surfaceCopyRectWithBounds (nonnegative b.width) (nonnegative b.height) x y bounds =
      none) : copyShmBufferWithBounds (some b) id x y bounds = .ok none := by
  simp only [copyShmBufferWithBounds]
  rw [if_neg (not_invalidData_of_valid hb)]
  simp only [hrect]

end Valid

end VBox
