import VBox.Lib.Raster
import VBox.Proto.Message

/-!
# Viewer.Frame

The viewer's frame buffer (`crates/client/src/viewer/frame.rs`).

Widths, heights and coordinates are `u32` in the source and natural numbers here; where the source
computes with them, `u32Fit` stops at a result that does not fit, as a build with overflow checks
does. A `FrameBuffer` carries the proof that it has `width * height` pixels, and that a `Vec` can hold
them: one with more than `isize::MAX` bytes is not allocated.

* `trimUniformPadding_ok`: the search for padding reads and computes within bounds in every
  rectangle of a buffer with fewer than `2 ^ 32` pixels.
-/

namespace VBox

open ByteCodec Raster

/-- What ends the viewer's thread. -/
inductive Fault where
  | overflow
  | outOfBounds
  | capacityOverflow
  deriving DecidableEq

/-- The result of an arithmetic step on `u32`s. -/
def u32Fit (n : Nat) : Except Fault Nat := if n < 2 ^ 32 then .ok n else .error .overflow

/-- `l[i]` -/
def index {α : Type} (l : List α) (i : Nat) : Except Fault α :=
  match l[i]? with
  | some a => .ok a
  | none => .error .outOfBounds

theorem u32Fit_ok {n : Nat} (h : n < 2 ^ 32) : u32Fit n = .ok n := if_pos h

theorem u32Fit_eq {n m : Nat} (h : u32Fit n = .ok m) : m = n := by
  unfold u32Fit at h
  split at h
  · cases h; rfl
  · cases h

theorem index_ok {α : Type} {l : List α} {i : Nat} {a : α} (h : l[i]? = some a) :
    index l i = .ok a := by
  rw [index, h]

/-! ## Pixels -/

def darkMattePixel : UInt32 := 0x00181818

def defaultMattePixel : UInt32 := darkMattePixel

def transparentPixel : UInt32 := 0x00000000

def visibleAlphaThreshold : UInt8 := 48

def contentEdgeTrimPx : Nat := 0

def rgbaToPixel (r g b a : UInt32) : UInt32 :=
  ((a &&& 0xff) <<< 24) ||| ((r &&& 0xff) <<< 16) ||| ((g &&& 0xff) <<< 8) ||| (b &&& 0xff)

def rgbToPixel (r g b : UInt32) : UInt32 :=
  ((r &&& 0xff) <<< 16) ||| ((g &&& 0xff) <<< 8) ||| (b &&& 0xff)

def pixelAlpha (pixel : UInt32) : UInt8 := ((pixel >>> 24) &&& 0xff).toUInt8

def pixelR (pixel : UInt32) : UInt8 := ((pixel >>> 16) &&& 0xff).toUInt8

def pixelG (pixel : UInt32) : UInt8 := ((pixel >>> 8) &&& 0xff).toUInt8

def pixelB (pixel : UInt32) : UInt8 := (pixel &&& 0xff).toUInt8

/-- `u8::abs_diff` on the colours, summed. -/
def pixelDistance (a b : UInt32) : Nat :=
  let diff (x y : UInt8) : Nat := max (x.toNat - y.toNat) (y.toNat - x.toNat)
  diff (pixelR a) (pixelR b) + diff (pixelG a) (pixelG b) + diff (pixelB a) (pixelB b)

/-! ## Rectangles -/

structure FrameRect where
  x : Nat
  y : Nat
  w : Nat
  h : Nat
  deriving DecidableEq

def FrameRect.new (x y w h : Nat) : FrameRect := { x, y, w := max w 1, h := max h 1 }

def trimContentRect (rect : FrameRect) : FrameRect :=
  if rect.w ≤ contentEdgeTrimPx * 2 ∨ rect.h ≤ contentEdgeTrimPx * 2 then rect
  else
    .new (rect.x + contentEdgeTrimPx) (rect.y + contentEdgeTrimPx) (rect.w - contentEdgeTrimPx * 2)
      (rect.h - contentEdgeTrimPx * 2)

/-! ## Padding -/

def uniformPaddingMinRun : Nat := 16

def paddingColorTolerance : Nat := 12

def paddingOutlierRatio : Nat := 20

/-- The loop of `is_uniform_row` and `is_uniform_col`, over the positions that are left. -/
def countOutliers (read : Nat → Except Fault UInt32) (first : UInt32) (allow : Nat) :
    Nat → List Nat → Except Fault Bool
  | _, [] => .ok true
  | outliers, i :: rest =>
    match read i with
    | .error e => .error e
    | .ok p =>
      if paddingColorTolerance < pixelDistance p first then
        if allow < outliers + 1 then .ok false
        else countOutliers read first allow (outliers + 1) rest
      else countOutliers read first allow outliers rest

def isUniform (read : Nat → Except Fault UInt32) (start stop : Nat) : Except Fault Bool :=
  if stop ≤ start then .ok true
  else
    match read start with
    | .error e => .error e
    | .ok first =>
      countOutliers read first (max ((stop - start) / paddingOutlierRatio) 1) 0
        (List.range' (start + 1) (stop - (start + 1)))

def readPixel (pixels : List UInt32) (stride x y : Nat) : Except Fault UInt32 :=
  match u32Fit (y * stride) with
  | .error e => .error e
  | .ok row => index pixels (row + x)

def isUniformRow (pixels : List UInt32) (stride y xStart xEnd : Nat) : Except Fault Bool :=
  isUniform (fun x => readPixel pixels stride x y) xStart xEnd

def isUniformCol (pixels : List UInt32) (stride x yStart yEnd : Nat) : Except Fault Bool :=
  isUniform (fun y => readPixel pixels stride x y) yStart yEnd

/-- `while hi > lo + 1` and the last line is uniform, `hi -= 1`. -/
def trimEndLoop (uniform : Nat → Except Fault Bool) (lo : Nat) : Nat → Except Fault Nat
  | 0 => .ok 0
  | hi + 1 =>
    if lo + 1 < hi + 1 then
      match uniform hi with
      | .error e => .error e
      | .ok false => .ok (hi + 1)
      | .ok true => trimEndLoop uniform lo hi
    else .ok (hi + 1)

/-- `while lo + 1 < hi` and the first line is uniform, `lo += 1`. Each turn uses up one of `fuel`. -/
def trimStartLoop (uniform : Nat → Except Fault Bool) (hi : Nat) : Nat → Nat → Except Fault Nat
  | 0, lo => .ok lo
  | fuel + 1, lo =>
    if lo + 1 < hi then
      match uniform lo with
      | .error e => .error e
      | .ok false => .ok lo
      | .ok true => trimStartLoop uniform hi fuel (lo + 1)
    else .ok lo

/-- A run that is too short to be padding is put back. -/
def trimEnd (uniform : Nat → Except Fault Bool) (lo hi : Nat) : Except Fault Nat :=
  match trimEndLoop uniform lo hi with
  | .error e => .error e
  | .ok hi' => .ok (if hi - hi' < uniformPaddingMinRun then hi else hi')

def trimStart (uniform : Nat → Except Fault Bool) (lo hi : Nat) : Except Fault Nat :=
  match trimStartLoop uniform hi hi lo with
  | .error e => .error e
  | .ok lo' => .ok (if lo' - lo < uniformPaddingMinRun then lo else lo')

def trimUniformPadding (pixels : List UInt32) (stride : Nat) (rect : FrameRect) :
    Except Fault FrameRect := do
  let bottom ← u32Fit (rect.y + rect.h)
  let right ← u32Fit (rect.x + rect.w)
  let bottom ← trimEnd (fun y => isUniformRow pixels stride y rect.x right) rect.y bottom
  let top ← trimStart (fun y => isUniformRow pixels stride y rect.x right) rect.y bottom
  let right ← trimEnd (fun x => isUniformCol pixels stride x top bottom) rect.x right
  let left ← trimStart (fun x => isUniformCol pixels stride x top bottom) rect.x right
  return .new left top (right - left) (bottom - top)

/-! ### Padding is found without a fault

In a rectangle of the buffer, with an area that fits a `u32`. -/

structure FrameRect.Inside (rect : FrameRect) (width height : Nat) : Prop where
  w_pos : 0 < rect.w
  h_pos : 0 < rect.h
  right_le : rect.x + rect.w ≤ width
  bottom_le : rect.y + rect.h ≤ height

theorem countOutliers_ok {read : Nat → Except Fault UInt32} {first : UInt32} {allow : Nat} :
    ∀ {l : List Nat} (outliers : Nat), (∀ i ∈ l, ∃ p, read i = .ok p) →
      ∃ b, countOutliers read first allow outliers l = .ok b := by
  intro l
  induction l with
  | nil => intro outliers _; exact ⟨true, rfl⟩
  | cons i l ih =>
    intro outliers h
    obtain ⟨p, hp⟩ := h i List.mem_cons_self
    have htail := fun n => ih n fun j hj => h j (List.mem_cons_of_mem _ hj)
    simp only [countOutliers, hp]
    split
    · split
      · exact ⟨false, rfl⟩
      · exact htail _
    · exact htail _

theorem isUniform_ok {read : Nat → Except Fault UInt32} {start stop : Nat}
    (h : ∀ i, start ≤ i → i < stop → ∃ p, read i = .ok p) :
    ∃ b, isUniform read start stop = .ok b := by
  unfold isUniform
  split
  · exact ⟨true, rfl⟩
  · rename_i hlt
    obtain ⟨first, hfirst⟩ := h start (Nat.le_refl _) (by omega)
    simp only [hfirst]
    refine countOutliers_ok 0 fun i hi => ?_
    rw [List.mem_range'_1] at hi
    exact h i (by omega) (by omega)

theorem readPixel_ok {pixels : List UInt32} {W H x y : Nat} (hlen : pixels.length = W * H)
    (harea : W * H < 2 ^ 32) (hx : x < W) (hy : y < H) : ∃ p, readPixel pixels W x y = .ok p := by
  have hidx := index_lt hx hy
  rw [readPixel, u32Fit_ok (by omega)]
  exact ⟨_, index_ok (List.getElem?_eq_getElem (by omega))⟩

theorem trimEndLoop_ok {uniform : Nat → Except Fault Bool} {lo : Nat} :
    ∀ {hi : Nat}, lo < hi → (∀ i, lo ≤ i → i < hi → ∃ b, uniform i = .ok b) →
      ∃ hi', trimEndLoop uniform lo hi = .ok hi' ∧ lo < hi' ∧ hi' ≤ hi := by
  intro hi
  induction hi with
  | zero => intro h _; omega
  | succ hi ih =>
    intro hlt h
    rw [trimEndLoop]
    split
    · rename_i hlo
      obtain ⟨b, hb⟩ := h hi (by omega) (by omega)
      rw [hb]
      cases b with
      | false => exact ⟨hi + 1, rfl, hlt, Nat.le_refl _⟩
      | true =>
        obtain ⟨hi', hok, hlt', hle'⟩ := ih (by omega) fun i hi0 hi1 => h i hi0 (by omega)
        exact ⟨hi', hok, hlt', by omega⟩
    · exact ⟨hi + 1, rfl, hlt, Nat.le_refl _⟩

theorem trimStartLoop_ok {uniform : Nat → Except Fault Bool} {hi : Nat} :
    ∀ (fuel : Nat) {lo : Nat}, lo < hi → (∀ i, lo ≤ i → i < hi → ∃ b, uniform i = .ok b) →
      ∃ lo', trimStartLoop uniform hi fuel lo = .ok lo' ∧ lo ≤ lo' ∧ lo' < hi := by
  intro fuel
  induction fuel with
  | zero => intro lo hlt _; exact ⟨lo, rfl, Nat.le_refl _, hlt⟩
  | succ fuel ih =>
    intro lo hlt h
    rw [trimStartLoop]
    split
    · rename_i hlo
      obtain ⟨b, hb⟩ := h lo (Nat.le_refl _) hlt
      rw [hb]
      cases b with
      | false => exact ⟨lo, rfl, Nat.le_refl _, hlt⟩
      | true =>
        obtain ⟨lo', hok, hle', hlt'⟩ := ih hlo fun i hi0 hi1 => h i (by omega) hi1
        exact ⟨lo', hok, by omega, hlt'⟩
    · exact ⟨lo, rfl, Nat.le_refl _, hlt⟩

theorem trimEnd_ok {uniform : Nat → Except Fault Bool} (lo hi : Nat) (hlt : lo < hi)
    (h : ∀ i, lo ≤ i → i < hi → ∃ b, uniform i = .ok b) :
    ∃ hi', trimEnd uniform lo hi = .ok hi' ∧ lo < hi' ∧ hi' ≤ hi := by
  obtain ⟨hi', hok, hlt', hle'⟩ := trimEndLoop_ok hlt h
  rw [trimEnd, hok]
  refine ⟨_, rfl, ?_⟩
  split <;> omega

theorem trimStart_ok {uniform : Nat → Except Fault Bool} (lo hi : Nat) (hlt : lo < hi)
    (h : ∀ i, lo ≤ i → i < hi → ∃ b, uniform i = .ok b) :
    ∃ lo', trimStart uniform lo hi = .ok lo' ∧ lo ≤ lo' ∧ lo' < hi := by
  obtain ⟨lo', hok, hle', hlt'⟩ := trimStartLoop_ok hi hlt h
  rw [trimStart, hok]
  refine ⟨_, rfl, ?_⟩
  split <;> omega

theorem trimUniformPadding_ok {pixels : List UInt32} {W H : Nat} (rect : FrameRect)
    (hlen : pixels.length = W * H) (harea : W * H < 2 ^ 32) (hW : W < 2 ^ 32) (hH : H < 2 ^ 32)
    (hrect : rect.Inside W H) :
    ∃ rect', trimUniformPadding pixels W rect = .ok rect' ∧ rect'.Inside W H := by
  obtain ⟨hw, hh, hright, hbottom⟩ := hrect
  have hrow : ∀ y, y < H → ∀ left right, right ≤ W →
      ∃ b, isUniformRow pixels W y left right = .ok b := fun y hy left right hr =>
    isUniform_ok fun x _ hx => readPixel_ok hlen harea (by omega) hy
  have hcol : ∀ x, x < W → ∀ top bottom, bottom ≤ H →
      ∃ b, isUniformCol pixels W x top bottom = .ok b := fun x hx top bottom hb =>
    isUniform_ok fun y _ hy => readPixel_ok hlen harea hx (by omega)
  obtain ⟨bottom, h1, hb1, hb2⟩ := trimEnd_ok rect.y (rect.y + rect.h) (by omega)
    fun y _ hy => hrow y (by omega) rect.x (rect.x + rect.w) hright
  obtain ⟨top, h2, ht1, ht2⟩ := trimStart_ok rect.y bottom hb1
    fun y _ hy => hrow y (by omega) rect.x (rect.x + rect.w) hright
  obtain ⟨right, h3, hr1, hr2⟩ := trimEnd_ok rect.x (rect.x + rect.w) (by omega)
    fun x _ hx => hcol x (by omega) top bottom (by omega)
  obtain ⟨left, h4, hl1, hl2⟩ := trimStart_ok rect.x right hr1
    fun x _ hx => hcol x (by omega) top bottom (by omega)
  refine ⟨.new left top (right - left) (bottom - top), ?_, ?_⟩
  · simp only [trimUniformPadding, bind_eq_ok]
    exact ⟨_, u32Fit_ok (by omega), _, u32Fit_ok (by omega), _, h1, _, h2, _, h3, _, h4, rfl⟩
  · constructor <;> simp only [FrameRect.new] <;> omega

/-! ## The buffer -/

def PixelEncoding.debug : PixelEncoding → String
  | .rawRgba => "RawRgba"
  | .zstdRgba => "ZstdRgba"

structure FrameBuffer where
  width : Nat
  height : Nat
  pixels : List UInt32
  content : FrameRect
  matte : UInt32
  pixels_length : pixels.length = width * height
  pixels_fit : 4 * (width * height) < 2 ^ 63

namespace FrameBuffer

/-- A buffer of the new size with as many pixels as fit copied row by row. -/
def preserved (f : FrameBuffer) (width height : Nat) (h : 4 * (width * height) < 2 ^ 63) :
    FrameBuffer :=
  { f with
    width, height
    pixels := copyRows (List.replicate (width * height) transparentPixel) width f.pixels f.width
      (min f.width width) (min f.height height)
    pixels_length := copyRows_length List.length_replicate f.pixels_length (Nat.min_le_right _ _)
      (Nat.min_le_left _ _) (Nat.min_le_right _ _) (Nat.min_le_left _ _)
    pixels_fit := h }

def cleared (f : FrameBuffer) (width height : Nat) (h : 4 * (width * height) < 2 ^ 63) :
    FrameBuffer :=
  { f with
    width, height
    pixels := List.replicate (width * height) transparentPixel
    pixels_length := List.length_replicate
    pixels_fit := h }

/-- `vec!` panics at more than `isize::MAX` bytes. -/
def replaceBufferPreservingPixels (f : FrameBuffer) (width height : Nat) :
    Except Fault FrameBuffer :=
  if h : 4 * (width * height) < 2 ^ 63 then .ok (f.preserved width height h)
  else .error .capacityOverflow

def replaceBufferClearing (f : FrameBuffer) (width height : Nat) : Except Fault FrameBuffer :=
  if h : 4 * (width * height) < 2 ^ 63 then .ok (f.cleared width height h)
  else .error .capacityOverflow

def resize (f : FrameBuffer) (width height : Nat) : Except Fault FrameBuffer :=
  if f.width = width ∧ f.height = height then .ok f
  else do
    let replaced ← f.replaceBufferPreservingPixels width height
    return { replaced with content := .new 0 0 (max width 1) (max height 1) }

def new (width height : Nat) : Except Fault FrameBuffer :=
  resize
    { width := 0, height := 0, pixels := [], content := .new 0 0 1 1, matte := defaultMattePixel,
      pixels_length := rfl, pixels_fit := by decide } width height

def resizeForRemoteSize (f : FrameBuffer) (width height : Nat) : Except Fault FrameBuffer :=
  if f.width = width ∧ f.height = height then .ok f
  else do
    let replaced ←
      (if width < f.width ∨ height < f.height then f.replaceBufferClearing width height
      else f.replaceBufferPreservingPixels width height)
    return { replaced with content := .new 0 0 (max width 1) (max height 1) }

def growPreservingPixels (f : FrameBuffer) (width height : Nat) : Except Fault FrameBuffer :=
  if f.width = width ∧ f.height = height then .ok f
  else f.replaceBufferPreservingPixels width height

theorem replaceBufferPreservingPixels_ok (f : FrameBuffer) {width height : Nat}
    (h : 4 * (width * height) < 2 ^ 63) :
    f.replaceBufferPreservingPixels width height = .ok (f.preserved width height h) :=
  dif_pos h

theorem replaceBufferClearing_ok (f : FrameBuffer) {width height : Nat}
    (h : 4 * (width * height) < 2 ^ 63) :
    f.replaceBufferClearing width height = .ok (f.cleared width height h) :=
  dif_pos h

def displaySize (f : FrameBuffer) : Nat × Nat := (max f.content.w 1, max f.content.h 1)

/-! ### The content rectangle -/

/-- The local variables of `update_content_rect`. -/
structure ContentScan where
  minX : Nat
  minY : Nat
  maxX : Nat
  maxY : Nat
  rSum : Nat
  gSum : Nat
  bSum : Nat
  count : Nat

def ContentScan.see (s : ContentScan) (x y : Nat) (pixel : UInt32) : ContentScan :=
  if pixelAlpha pixel < visibleAlphaThreshold then s
  else
    { minX := min s.minX x, minY := min s.minY y, maxX := max s.maxX x, maxY := max s.maxY y,
      rSum := s.rSum + (pixelR pixel).toNat, gSum := s.gSum + (pixelG pixel).toNat,
      bSum := s.bSum + (pixelB pixel).toNat, count := s.count + 1 }

def scanContent (f : FrameBuffer) : ContentScan :=
  (List.range f.height).foldl
    (fun s y => (List.range f.width).foldl
      (fun s x => s.see x y (f.pixels.getD (y * f.width + x) transparentPixel)) s)
    { minX := f.width, minY := f.height, maxX := 0, maxY := 0, rSum := 0, gSum := 0, bSum := 0,
      count := 0 }

def updateContentRect (f : FrameBuffer) : Except Fault FrameBuffer :=
  let s := f.scanContent
  if s.count = 0 then
    .ok { f with content := .new 0 0 (max f.width 1) (max f.height 1), matte := defaultMattePixel }
  else
    let alphaRect := trimContentRect
      (.new s.minX s.minY (s.maxX - s.minX + 1) (s.maxY - s.minY + 1))
    match trimUniformPadding f.pixels f.width alphaRect with
    | .error e => .error e
    | .ok content =>
      .ok { f with
        content
        matte := rgbToPixel (UInt32.ofNat (s.rSum / s.count)) (UInt32.ofNat (s.gSum / s.count))
          (UInt32.ofNat (s.bSum / s.count)) }

/-! ### Tiles -/

/-- `apply_tile` returns an error or panics. -/
inductive TileError where
  | rejected (message : String)
  | panicked (fault : Fault)
  deriving DecidableEq

/-- The body of the inner loop of `apply_tile`. -/
def drawPixel (tile : FrameTile) (srcRow dstRow : Nat) (pixels : List UInt32) (col : Nat) :
    Except Fault (List UInt32) := do
  let offset ← u32Fit (col * 4)
  let src := srcRow + offset
  let dst := dstRow + col
  let r ← index tile.bytes src
  let g ← index tile.bytes (src + 1)
  let b ← index tile.bytes (src + 2)
  let a ← index tile.bytes (src + 3)
  if a < visibleAlphaThreshold then return pixels
  else if dst < pixels.length then
    return pixels.set dst (rgbaToPixel r.toUInt32 g.toUInt32 b.toUInt32 a.toUInt32)
  else throw .outOfBounds

/-- The body of the outer loop. -/
def drawRow (tile : FrameTile) (width : Nat) (pixels : List UInt32) (row : Nat) :
    Except Fault (List UInt32) := do
  let srcRow ← u32Fit (row * tile.stride.toNat)
  let y ← u32Fit (tile.y.toNat + row)
  let start ← u32Fit (y * width)
  let dstRow ← u32Fit (start + tile.x.toNat)
  (List.range tile.w.toNat).foldlM (drawPixel tile srcRow dstRow) pixels

def drawTile (tile : FrameTile) (width : Nat) (pixels : List UInt32) : Except Fault (List UInt32) :=
  (List.range tile.h.toNat).foldlM (drawRow tile width) pixels

theorem drawPixel_length {tile : FrameTile} {srcRow dstRow n : Nat} (col : Nat)
    (pixels pixels' : List UInt32) (hn : pixels.length = n)
    (h : drawPixel tile srcRow dstRow pixels col = .ok pixels') : pixels'.length = n := by
  simp only [drawPixel, bind_eq_ok] at h
  obtain ⟨offset, -, r, -, g, -, b, -, a, -, h⟩ := h
  split at h
  · cases h; exact hn
  split at h
  · cases h; rw [List.length_set, hn]
  · cases h

theorem drawRow_length {tile : FrameTile} {width n : Nat} (row : Nat) (pixels pixels' : List UInt32)
    (hn : pixels.length = n) (h : drawRow tile width pixels row = .ok pixels') :
    pixels'.length = n := by
  simp only [drawRow, bind_eq_ok] at h
  obtain ⟨srcRow, -, y, -, start, -, dstRow, -, h⟩ := h
  exact foldlM_invariant (I := (·.length = n)) drawPixel_length hn h

theorem drawTile_length {tile : FrameTile} {width : Nat} {pixels pixels' : List UInt32}
    (h : drawTile tile width pixels = .ok pixels') : pixels'.length = pixels.length :=
  foldlM_invariant (I := (·.length = pixels.length)) drawRow_length rfl h

def newWidth (f : FrameBuffer) (tile : FrameTile) : Nat :=
  max (max f.width (min (tile.x.toNat + tile.w.toNat) (2 ^ 32 - 1))) 1

def newHeight (f : FrameBuffer) (tile : FrameTile) : Nat :=
  max (max f.height (min (tile.y.toNat + tile.h.toNat) (2 ^ 32 - 1))) 1

/-- The buffer `apply_tile` draws in: large enough for the tile, if there is one. -/
def growFor (f : FrameBuffer) (tile : FrameTile) : Except Fault FrameBuffer :=
  if f.newWidth tile ≠ f.width ∨ f.newHeight tile ≠ f.height then
    f.growPreservingPixels (f.newWidth tile) (f.newHeight tile)
  else .ok f

/-- The buffer with other pixels. -/
def withPixels (f : FrameBuffer) (pixels : List UInt32) (h : pixels.length = f.pixels.length) :
    FrameBuffer :=
  { f with pixels, pixels_length := h.trans f.pixels_length }

/-- The loops of `apply_tile`. -/
def draw (f : FrameBuffer) (tile : FrameTile) : Except Fault FrameBuffer :=
  match h : drawTile tile f.width f.pixels with
  | .error e => .error e
  | .ok pixels => .ok (f.withPixels pixels (drawTile_length h))

/-- `apply_tile`: the buffer that the call leaves behind, and its result, whether the display size
has changed. All checks come before the buffer is touched; a panic leaves none. -/
def applyTileInPlace (f : FrameBuffer) (tile : FrameTile) :
    Except Fault (FrameBuffer × Except String Bool) :=
  let encoding := tile.encoding.debug
  let stride := tile.stride.toNat
  let minStride := tile.w.toNat * 4
  let needed := stride * tile.h.toNat
  let len := tile.bytes.length
  if tile.encoding ≠ .rawRgba then
    .ok (f, .error s!"unsupported pixel encoding: {encoding}")
  else if 2 ^ 32 ≤ minStride then .ok (f, .error "tile stride overflow")
  else if stride < minStride then
    .ok (f, .error s!"tile stride {stride} < minimum {minStride}")
  else if 2 ^ 32 ≤ needed then .ok (f, .error "tile byte length overflow")
  else if len < needed then .ok (f, .error s!"tile bytes {len} < needed {needed}")
  else do
    let grown ← f.growFor tile
    let drawn ← grown.draw tile
    let f' ← drawn.updateContentRect
    return (f', .ok (decide (f.displaySize ≠ f'.displaySize)))

/-- The call as its caller reads it. -/
def applyTile (f : FrameBuffer) (tile : FrameTile) : Except TileError (FrameBuffer × Bool) :=
  match f.applyTileInPlace tile with
  | .error fault => .error (.panicked fault)
  | .ok (_, .error message) => .error (.rejected message)
  | .ok (f', .ok changed) => .ok (f', changed)

end FrameBuffer
end VBox
