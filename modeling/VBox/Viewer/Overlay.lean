import Mathlib.Data.List.Induction
import VBox.Viewer.Padding
import VBox.Viewer.Picture

/-!
# Viewer.Overlay

`apply_tile` on the buffer itself (`crates/client/src/viewer/frame.rs`): what it leaves behind, and
for which tiles. The size of the grown buffer is computed with a saturating addition and the index
of a row with plain ones, so a tile near the end of the `u32`s passes the checks and then panics;
and a buffer that a `Vec` cannot hold is not allocated.

* `rows_of_updateContentRect`, `updateContentRect_of_rows`: in which buffers the content rectangle
  is found.
* `applyTileInPlace_capacity`: a buffer that is too large for a `Vec` is not grown.
* `placeable_of_applySafe`, `applySafe_of_placeable`: the tiles that are drawn where they belong.
* `applyTile_overlay`: what a tile that fits leaves, pixel by pixel.
-/

namespace VBox

open ByteCodec Raster

theorem pixelAlpha_rgbaToPixel (r g b : UInt32) (a : UInt8) :
    pixelAlpha (rgbaToPixel r g b a.toUInt32) = a := by
  -- the mask keeps the low eight bits, which the shifts of the colours clear
  have hmask : ∀ k (_ : k < 8), (255#32)[k] = true ∧ (255#32)[24 + k - 16] = false ∧
      (255#32)[24 + k - 8] = false ∧ (255#32)[24 + k] = false ∧ (255#8)[k] = true := by
    decide
  apply UInt8.toBitVec_inj.mp
  simp only [pixelAlpha, rgbaToPixel]
  simp
  ext i hi
  obtain ⟨h0, h16, h8, h24, hbyte⟩ := hmask i hi
  have h32 : 24 + i < 32 := by omega
  simp [h0, h8, h16, h24, hbyte, h32, BitVec.getLsbD_eq_getElem hi]

namespace FrameBuffer

variable {f f' grown drawn : FrameBuffer} {tile : FrameTile}

/-! ## The content rectangle -/

/-- A pixel that `update_content_rect` counts. -/
def Visible (f : FrameBuffer) (i j : Nat) : Prop := visibleAlphaThreshold ≤ pixelAlpha (f.pixel i j)

theorem Visible.inside {i j : Nat} (h : f.Visible i j) : i < f.width ∧ j < f.height := by
  by_contra hout
  rw [Visible, pixel_outside hout] at h
  exact absurd h (by decide)

/-- What `update_content_rect` knows after the positions `cells`. -/
structure Scanned (f : FrameBuffer) (cells : List (Nat × Nat)) (s : ContentScan) : Prop where
  bounds : ∀ i j, (i, j) ∈ cells → f.Visible i j →
    0 < s.count ∧ s.minX ≤ i ∧ i ≤ s.maxX ∧ s.minY ≤ j ∧ j ≤ s.maxY
  blank : s.count = 0 → s.minX = f.width ∧ s.minY = f.height ∧ s.maxX = 0 ∧ s.maxY = 0
  left : 0 < s.count → ∃ j, f.Visible s.minX j
  right : 0 < s.count → ∃ j, f.Visible s.maxX j
  top : 0 < s.count → ∃ i, f.Visible i s.minY
  bottom : 0 < s.count → ∃ i, f.Visible i s.maxY

/-- The smaller of a bound and a new value, if the bound means nothing before the first value. -/
theorem of_min {P : Nat → Prop} {count bound value : Nat} (hbound : 0 < count → P bound)
    (hvalue : P value) (hfirst : count = 0 → value ≤ bound) : P (min bound value) := by
  rcases Nat.lt_or_ge bound value with hlt | hle
  · rw [Nat.min_eq_left hlt.le]
    exact hbound (by omega)
  · rwa [Nat.min_eq_right hle]

theorem of_max {P : Nat → Prop} {count bound value : Nat} (hbound : 0 < count → P bound)
    (hvalue : P value) (hfirst : count = 0 → bound ≤ value) : P (max bound value) := by
  rcases Nat.lt_or_ge value bound with hlt | hle
  · rw [Nat.max_eq_left hlt.le]
    exact hbound (by omega)
  · rwa [Nat.max_eq_right hle]

theorem Scanned.see {cells : List (Nat × Nat)} {s : ContentScan} (h : f.Scanned cells s) {i j : Nat}
    (hi : i < f.width) (hj : j < f.height) :
    f.Scanned (cells ++ [(i, j)])
      (s.see i j (f.pixels.getD (j * f.width + i) transparentPixel)) := by
  have hpixel : f.pixels.getD (j * f.width + i) transparentPixel = f.pixel i j := by
    rw [pixel, if_pos ⟨hi, hj⟩]
  rw [hpixel, ContentScan.see]
  split
  · rename_i hlow
    have hnot : ¬ f.Visible i j := UInt8.not_le.mpr hlow
    refine ⟨?_, h.blank, h.left, h.right, h.top, h.bottom⟩
    intro i' j' hmem hvisible
    obtain hmem | hmem := List.mem_append.mp hmem
    · exact h.bounds i' j' hmem hvisible
    · cases List.mem_singleton.mp hmem
      exact absurd hvisible hnot
  · rename_i hhigh
    have hvisible : f.Visible i j := UInt8.not_lt.mp hhigh
    have hblank := h.blank
    refine ⟨?_, fun h0 => by simp at h0, ?_, ?_, ?_, ?_⟩
    · intro i' j' hmem hvisible'
      obtain hmem | hmem := List.mem_append.mp hmem
      · have := h.bounds i' j' hmem hvisible'
        simp only
        omega
      · cases List.mem_singleton.mp hmem
        simp only
        omega
    -- a bound is the position itself, or it was there before
    · exact fun _ => of_min (P := fun x => ∃ k, f.Visible x k) h.left ⟨j, hvisible⟩ (by omega)
    · exact fun _ => of_max (P := fun x => ∃ k, f.Visible x k) h.right ⟨j, hvisible⟩ (by omega)
    · exact fun _ => of_min (P := fun y => ∃ k, f.Visible k y) h.top ⟨i, hvisible⟩ (by omega)
    · exact fun _ => of_max (P := fun y => ∃ k, f.Visible k y) h.bottom ⟨i, hvisible⟩ (by omega)

/-- The positions of a buffer, row by row. -/
def cells (f : FrameBuffer) : List (Nat × Nat) :=
  (List.range f.height).flatMap fun y => (List.range f.width).map fun x => (x, y)

theorem mem_cells {i j : Nat} : (i, j) ∈ f.cells ↔ i < f.width ∧ j < f.height := by
  simp [cells, and_comm]

theorem scanContent_scanned (f : FrameBuffer) : f.Scanned f.cells f.scanContent := by
  have hscan : f.scanContent = f.cells.foldl
      (fun s c => s.see c.1 c.2 (f.pixels.getD (c.2 * f.width + c.1) transparentPixel))
      { minX := f.width, minY := f.height, maxX := 0, maxY := 0, rSum := 0, gSum := 0, bSum := 0,
        count := 0 } := by
    simp only [scanContent, cells, List.foldl_flatMap, List.foldl_map]
  have hmem : ∀ c ∈ f.cells, c.1 < f.width ∧ c.2 < f.height := fun c hc => mem_cells.mp hc
  rw [hscan]
  clear hscan
  generalize f.cells = positions at hmem ⊢
  induction positions using List.reverseRecOn with
  | nil =>
    exact ⟨fun _ _ hmem => absurd hmem List.not_mem_nil, fun _ => ⟨rfl, rfl, rfl, rfl⟩,
      fun h0 => absurd h0 (Nat.lt_irrefl 0), fun h0 => absurd h0 (Nat.lt_irrefl 0),
      fun h0 => absurd h0 (Nat.lt_irrefl 0), fun h0 => absurd h0 (Nat.lt_irrefl 0)⟩
  | append_singleton past c ih =>
    obtain ⟨hi, hj⟩ := hmem c (by simp)
    rw [List.foldl_append]
    exact (ih fun c' hc' => hmem c' (List.mem_append_left _ hc')).see hi hj

/-- The smallest rectangle that holds all visible pixels. -/
def boundingRect (f : FrameBuffer) : FrameRect :=
  let s := f.scanContent
  ⟨s.minX, s.minY, s.maxX - s.minX + 1, s.maxY - s.minY + 1⟩

theorem boundingRect_inside (h : 0 < f.scanContent.count) :
    f.boundingRect.Inside f.width f.height := by
  obtain ⟨hx, hxw, hy, hyh⟩ := f.scanContent_bounds h
  constructor <;> simp only [boundingRect] <;> omega

theorem updateContentRect_of_count (h : 0 < f.scanContent.count) :
    (∀ e, trimUniformPadding f.pixels f.width f.boundingRect = .error e →
      f.updateContentRect = .error e) ∧
    ∀ content, trimUniformPadding f.pixels f.width f.boundingRect = .ok content →
      ∃ f', f.updateContentRect = .ok f' ∧ f'.content = content ∧ f'.picture = f.picture := by
  have hrect : trimContentRect (.new f.scanContent.minX f.scanContent.minY
      (f.scanContent.maxX - f.scanContent.minX + 1)
      (f.scanContent.maxY - f.scanContent.minY + 1)) = f.boundingRect := by
    rw [trimContentRect_eq _ (by simp [FrameRect.new]) (by simp [FrameRect.new])]
    simp [boundingRect, FrameRect.new]
  constructor
  · intro e he
    simp only [updateContentRect, if_neg (Nat.pos_iff_ne_zero.mp h), hrect, he]
  · intro content hcontent
    simp only [updateContentRect, if_neg (Nat.pos_iff_ne_zero.mp h), hrect, hcontent]
    exact ⟨_, rfl, rfl, rfl⟩

theorem updateContentRect_of_blank (h : f.scanContent.count = 0) :
    ∃ f', f.updateContentRect = .ok f' ∧ f'.content = .new 0 0 (max f.width 1) (max f.height 1) ∧
      f'.picture = f.picture := by
  simp only [updateContentRect, if_pos h]
  exact ⟨_, rfl, rfl, rfl⟩

theorem readable_of_inside {rect : FrameRect} (hrect : rect.Inside f.width f.height)
    (hrows : (rect.y + rect.h - 1) * f.width < 2 ^ 32) : rect.Readable f.pixels f.width := by
  obtain ⟨hw, hh, hright, hbottom⟩ := hrect
  intro x y hx hx' hy hy'
  have hrow : y * f.width ≤ (rect.y + rect.h - 1) * f.width := Nat.mul_le_mul_right _ (by omega)
  rw [readPixel, u32Fit_ok (by omega)]
  exact ⟨_, index_ok (getElem?_pixels (by omega) (by omega))⟩

theorem boundingRect_last (h : 0 < f.scanContent.count) :
    f.boundingRect.y + f.boundingRect.h - 1 = f.scanContent.maxY := by
  obtain ⟨-, -, hy, -⟩ := f.scanContent_bounds h
  simp only [boundingRect]
  omega

/-- Where the content rectangle is found, the rows of the visible pixels have a `u32` index, or no
more than one pixel is visible. -/
theorem rows_of_updateContentRect {f' : FrameBuffer} (hw : f.width < 2 ^ 32) (hh : f.height < 2 ^ 32)
    (hf' : f.updateContentRect = .ok f') {i j i' j' : Nat} (hvisible : f.Visible i j)
    (hvisible' : f.Visible i' j') (hne : (i, j) ≠ (i', j')) : j * f.width < 2 ^ 32 := by
  have hscan := f.scanContent_scanned
  obtain ⟨hcount, hi1, hi2, hj1, hj2⟩ := hscan.bounds i j (mem_cells.mpr hvisible.inside) hvisible
  obtain ⟨-, hi1', hi2', hj1', hj2'⟩ :=
    hscan.bounds i' j' (mem_cells.mpr hvisible'.inside) hvisible'
  by_contra hlarge
  have hrow : j * f.width ≤ f.scanContent.maxY * f.width := Nat.mul_le_mul_right _ hj2
  have hmany : 1 < f.boundingRect.w ∨ 1 < f.boundingRect.h := by
    by_contra hone
    simp only [boundingRect] at hone
    exact hne (by rw [Prod.mk.injEq]; omega)
  obtain ⟨hrw, hrh, hright, hbottom⟩ := boundingRect_inside hcount
  have hfault : trimUniformPadding f.pixels f.width f.boundingRect = .error .overflow :=
    trimUniformPadding_fault hrw hrh (by omega) (by omega) hmany
      (by rw [boundingRect_last hcount]; omega)
  rw [(updateContentRect_of_count hcount).1 _ hfault] at hf'
  cases hf'

/-- The other way round, the content rectangle is found. -/
theorem updateContentRect_of_rows (hw : f.width < 2 ^ 32) (hh : f.height < 2 ^ 32)
    (hall : ∀ i j i' j', f.Visible i j → f.Visible i' j' → (i, j) ≠ (i', j') →
      j * f.width < 2 ^ 32) : ∃ f', f.updateContentRect = .ok f' := by
  rcases Nat.eq_zero_or_pos f.scanContent.count with hcount | hcount
  · obtain ⟨f', hf', -⟩ := updateContentRect_of_blank hcount
    exact ⟨f', hf'⟩
  have hscan := f.scanContent_scanned
  obtain ⟨hrw, hrh, hright, hbottom⟩ := boundingRect_inside hcount
  obtain ⟨jl, hleft⟩ := hscan.left hcount
  obtain ⟨jr, hrgt⟩ := hscan.right hcount
  obtain ⟨it, htop⟩ := hscan.top hcount
  obtain ⟨ib, hbot⟩ := hscan.bottom hcount
  have htrim : ∃ content, trimUniformPadding f.pixels f.width f.boundingRect = .ok content := by
    by_cases hone : f.boundingRect.w = 1 ∧ f.boundingRect.h = 1
    · have hrect : ∀ r : FrameRect, r.w = 1 ∧ r.h = 1 → r = ⟨r.x, r.y, 1, 1⟩ := by
        rintro ⟨x, y, w, h⟩ ⟨rfl, rfl⟩
        rfl
      rw [hrect _ hone]
      exact ⟨_, trimUniformPadding_single _ _ (by omega) (by omega)⟩
    · have hrows : (f.boundingRect.y + f.boundingRect.h - 1) * f.width < 2 ^ 32 := by
        rw [boundingRect_last hcount]
        obtain ⟨hx, -, hy, -⟩ := f.scanContent_bounds hcount
        simp only [boundingRect] at hone
        -- a pixel in the last row, and one in another row or column
        by_cases hrow : f.scanContent.minY = f.scanContent.maxY
        · by_cases hcol : ib = f.scanContent.minX
          · exact hall ib _ _ _ hbot hrgt (by rw [ne_eq, Prod.mk.injEq]; omega)
          · exact hall ib _ _ _ hbot hleft (by rw [ne_eq, Prod.mk.injEq]; omega)
        · exact hall ib _ _ _ hbot htop (by rw [ne_eq, Prod.mk.injEq]; omega)
      obtain ⟨content, hcontent, -⟩ := trimUniformPadding_spec hrw hrh (by omega) (by omega)
        (readable_of_inside ⟨hrw, hrh, hright, hbottom⟩ hrows)
      exact ⟨content, hcontent⟩
  obtain ⟨content, hcontent⟩ := htrim
  obtain ⟨f', hf', -⟩ := (updateContentRect_of_count hcount).2 _ hcontent
  exact ⟨f', hf'⟩

/-! ## Where a tile goes -/

/-- A pixel that is visible in the buffer or in the tile. -/
def Shown (f : FrameBuffer) (tile : FrameTile) (i j : Nat) : Prop :=
  f.Visible i j ∨ (tile.paints i j).isSome

/-- The grown buffer can be allocated, the rows of the tile have a `u32` index, its visible pixels lie
in the grown buffer, and the rows of all visible pixels have an index too, unless no more than one
pixel is visible. -/
structure Placeable (f : FrameBuffer) (tile : FrameTile) : Prop where
  capacity : f.newWidth tile * f.newHeight tile < 2 ^ 61
  rows : ∀ row, row < tile.h.toNat →
    (tile.y.toNat + row) * f.newWidth tile + tile.x.toNat < 2 ^ 32
  cells : ∀ row, row < tile.h.toNat → ∀ col, col < tile.w.toNat → tile.visible row col ≠ none →
    tile.x.toNat + col < f.newWidth tile ∧ tile.y.toNat + row < f.newHeight tile
  shown : ∀ i j i' j', f.Shown tile i j → f.Shown tile i' j' → (i, j) ≠ (i', j') →
    j * f.newWidth tile < 2 ^ 32

/-- Every visible pixel of the tile is in its row and column. -/
def Landed (f' : FrameBuffer) (tile : FrameTile) : Prop :=
  ∀ row, row < tile.h.toNat → ∀ col, col < tile.w.toNat → ∀ p, tile.visible row col = some p →
    tile.x.toNat + col < f'.width ∧ tile.y.toNat + row < f'.height ∧
      f'.pixels[(tile.y.toNat + row) * f'.width + (tile.x.toNat + col)]? = some p

/-- The tile is applied without a fault: drawn where it belongs, or rejected without a change. -/
def ApplySafe (f : FrameBuffer) (tile : FrameTile) : Prop :=
  ∃ f' result, f.applyTileInPlace tile = .ok (f', result) ∧
    match result with
    | .ok _ => f'.Landed tile
    | .error _ => f' = f

/-! ### The drawn buffer -/

theorem visible_alpha {row col : Nat} {p : UInt32} (h : tile.visible row col = some p) :
    visibleAlphaThreshold ≤ pixelAlpha p := by
  unfold FrameTile.visible at h
  dsimp only at h
  split at h
  · cases h
  · rename_i hhigh
    cases h
    rw [pixelAlpha_rgbaToPixel]
    exact UInt8.not_lt.mp hhigh

theorem paints_of_visible (ht : tile.Accepted) {row col : Nat} (hrow : row < tile.h.toNat)
    (hcol : col < tile.w.toNat) :
    tile.paints (tile.x.toNat + col) (tile.y.toNat + row) = tile.visible row col := by
  rw [FrameTile.paints, if_pos ⟨ht, by omega, by omega, by omega, by omega⟩]
  simp only [Nat.add_sub_cancel_left]

/-- Where a tile paints is a row and a column of it. -/
theorem paints_eq_some {i j : Nat} {p : UInt32} (h : tile.paints i j = some p) :
    ∃ row col, row < tile.h.toNat ∧ col < tile.w.toNat ∧ tile.visible row col = some p ∧
      i = tile.x.toNat + col ∧ j = tile.y.toNat + row := by
  unfold FrameTile.paints at h
  split at h
  · rename_i hin
    exact ⟨j - tile.y.toNat, i - tile.x.toNat, by omega, by omega, h, by omega, by omega⟩
  · cases h

/-- The drawn buffer has the size of the grown one. -/
theorem size_drawn (hgrow : f.growFor tile = .ok grown) (hdraw : grown.draw tile = .ok drawn) :
    drawn.width = f.newWidth tile ∧ drawn.height = f.newHeight tile := by
  obtain ⟨hgw, hgh, -⟩ := growFor_spec hgrow
  obtain ⟨pixels, hpixels, rfl⟩ := draw_eq_ok hdraw
  exact ⟨hgw, hgh⟩

section Drawn

variable (ht : tile.Accepted) (hgrow : f.growFor tile = .ok grown)
  (hrows : ∀ row, row < tile.h.toNat →
    (tile.y.toNat + row) * f.newWidth tile + tile.x.toNat < 2 ^ 32)
  (hcells : ∀ row, row < tile.h.toNat → ∀ col, col < tile.w.toNat → tile.visible row col ≠ none →
    tile.x.toNat + col < f.newWidth tile ∧ tile.y.toNat + row < f.newHeight tile)

include ht hgrow hrows hcells

theorem drawTile_grown :
    drawTile tile grown.width grown.pixels =
      .ok (paint grown.width tile.x.toNat tile.y.toNat tile.w.toNat tile.h.toNat tile.visible
        grown.pixels) := by
  obtain ⟨hgw, hgh, -⟩ := growFor_spec hgrow
  refine drawTile_put ht (by rw [hgw]; exact Nat.le_max_right _ _) grown.pixels_length
    (fun row hrow => ?_) (fun row hrow col hcol hvisible => ?_)
  · rw [hgw]
    exact hrows row hrow
  · obtain ⟨hx, hy⟩ := hcells row hrow col hcol hvisible
    rw [hgw, hgh, Nat.add_assoc]
    exact index_lt hx hy

variable (hdraw : grown.draw tile = .ok drawn)

include hdraw

theorem pixel_drawn {i j : Nat} (hi : i < f.newWidth tile) (hj : j < f.newHeight tile) :
    drawn.pixel i j = (tile.paints i j).getD (f.pixel i j) := by
  obtain ⟨hgw, hgh, hgp⟩ := growFor_spec hgrow
  obtain ⟨pixels, hpixels, rfl⟩ := draw_eq_ok hdraw
  have hi' : i < grown.width := by omega
  have hj' : j < grown.height := by omega
  have hx : tile.x.toNat ≤ grown.width := by
    have := tile.x.toNat_lt
    rw [hgw, newWidth]
    omega
  refine pixel_withPixels hi' hj' ?_
  rw [Except.ok.inj (hpixels.symm.trans (drawTile_grown ht hgrow hrows hcells)),
    getElem?_paint_clipped hi' hx, getElem?_pixels hi' hj', hgp, FrameTile.paints]
  · by_cases hin : tile.y.toNat ≤ j ∧ j < tile.y.toNat + tile.h.toNat ∧ tile.x.toNat ≤ i ∧
        i < tile.x.toNat + tile.w.toNat
    · simp only [if_pos hin, if_pos (And.intro ht hin)]
      rfl
    · simp only [if_neg hin, if_neg fun h : tile.Accepted ∧ _ => hin h.2]
      rfl
  · intro row hrow col hcol hout
    by_contra hvisible
    have := (hcells row hrow col hcol hvisible).1
    omega

theorem visible_drawn {i j : Nat} : drawn.Visible i j ↔ f.Shown tile i j := by
  have hpixel := fun {i j : Nat} => pixel_drawn ht hgrow hrows hcells hdraw (i := i) (j := j)
  obtain ⟨hdw, hdh⟩ := size_drawn hgrow hdraw
  constructor
  · intro hvisible
    obtain ⟨hi, hj⟩ : i < f.newWidth tile ∧ j < f.newHeight tile := by
      rw [← hdw, ← hdh]
      exact hvisible.inside
    rw [Visible, hpixel hi hj] at hvisible
    cases hpaint : tile.paints i j with
    | none =>
      rw [hpaint] at hvisible
      exact .inl hvisible
    | some p => exact .inr (by simp [hpaint])
  · intro hshown
    cases hpaint : tile.paints i j with
    | none =>
      have hvisible : f.Visible i j := by simpa [Shown, hpaint] using hshown
      obtain ⟨hi, hj⟩ := hvisible.inside
      rw [Visible, hpixel (by rw [newWidth]; omega) (by rw [newHeight]; omega), hpaint]
      exact hvisible
    | some p =>
      obtain ⟨row, col, hrow, hcol, hp, rfl, rfl⟩ := paints_eq_some hpaint
      obtain ⟨hi, hj⟩ := hcells row hrow col hcol (by rw [hp]; exact Option.some_ne_none p)
      rw [Visible, hpixel hi hj, hpaint]
      exact visible_alpha hp

end Drawn

/-! ### Exactly the tiles that can be placed -/

theorem drawTile_rows {W : Nat} {px px' : List UInt32} (h : drawTile tile W px = .ok px') {row : Nat}
    (hrow : row < tile.h.toNat) : (tile.y.toNat + row) * W + tile.x.toNat < 2 ^ 32 := by
  obtain ⟨t, t', hstep⟩ := foldlM_mem h (List.mem_range.mpr hrow)
  simp only [drawRow, bind_eq_ok] at hstep
  obtain ⟨srcRow, -, y, hy, start, hstart, dstRow, hdst, -⟩ := hstep
  obtain rfl := u32Fit_eq hy
  obtain rfl := u32Fit_eq hstart
  by_contra hlarge
  rw [u32Fit, if_neg hlarge] at hdst
  cases hdst

/-- Both bounds stay `u32`s. -/
theorem newSize_lt (hw : f.width < 2 ^ 32) (hh : f.height < 2 ^ 32) (tile : FrameTile) :
    f.newWidth tile < 2 ^ 32 ∧ f.newHeight tile < 2 ^ 32 := by
  rw [newWidth, newHeight]
  omega

/-- A tile that asks for a buffer of `2 ^ 61` pixels ends the viewer. -/
theorem applyTileInPlace_capacity (ht : tile.Accepted)
    (hlarge : 2 ^ 61 ≤ f.newWidth tile * f.newHeight tile) :
    f.applyTileInPlace tile = .error .capacityOverflow := by
  have hfit := f.pixels_fit
  -- the buffer that is there has fewer, so it would have to grow
  have hgrows : f.newWidth tile ≠ f.width ∨ f.newHeight tile ≠ f.height := by
    by_contra hsame
    simp only [not_or, not_not] at hsame
    rw [hsame.1, hsame.2] at hlarge
    omega
  have hgrow : f.growFor tile = .error .capacityOverflow := by
    rw [growFor, if_pos hgrows, growPreservingPixels, if_neg (by omega)]
    exact dif_neg (by omega)
  rw [applyTileInPlace_of_accepted f ht, hgrow]
  rfl

theorem placeable_of_applySafe (hw : f.width < 2 ^ 32) (hh : f.height < 2 ^ 32)
    (ht : tile.Accepted) (h : f.ApplySafe tile) : f.Placeable tile := by
  obtain ⟨f', result, happly, hresult⟩ := h
  obtain ⟨hnw, hnh⟩ := newSize_lt hw hh tile
  have hcapacity : f.newWidth tile * f.newHeight tile < 2 ^ 61 := by
    by_contra hlarge
    cases happly.symm.trans (applyTileInPlace_capacity ht (Nat.not_lt.mp hlarge))
  cases applied happly with
  | refused hnot _ => exact absurd ht hnot
  | @drawn grown drawn _ hgrow hdraw hcontent =>
    obtain ⟨hgw, hgh, -⟩ := growFor_spec hgrow
    obtain ⟨pixels, hpixels, hdrawn⟩ := draw_eq_ok hdraw
    have hrows : ∀ row, row < tile.h.toNat →
        (tile.y.toNat + row) * f.newWidth tile + tile.x.toNat < 2 ^ 32 := by
      intro row hrow
      rw [← hgw]
      exact drawTile_rows hpixels hrow
    have hpicture := picture_updateContentRect hcontent
    have hsize : f'.width = f.newWidth tile ∧ f'.height = f.newHeight tile := by
      rw [← hgw, ← hgh]
      rw [hdrawn] at hpicture
      exact ⟨congrArg Picture.width hpicture, congrArg Picture.height hpicture⟩
    have hcells : ∀ row, row < tile.h.toNat → ∀ col, col < tile.w.toNat →
        tile.visible row col ≠ none →
        tile.x.toNat + col < f.newWidth tile ∧ tile.y.toNat + row < f.newHeight tile := by
      intro row hrow col hcol hvisible
      obtain ⟨p, hp⟩ := Option.ne_none_iff_exists'.mp hvisible
      obtain ⟨hx, hy, -⟩ := hresult row hrow col hcol p hp
      rw [← hsize.1, ← hsize.2]
      exact ⟨hx, hy⟩
    obtain ⟨hdw, hdh⟩ := size_drawn hgrow hdraw
    have hvisible := fun {i j : Nat} =>
      visible_drawn ht hgrow hrows hcells hdraw (i := i) (j := j)
    refine ⟨hcapacity, hrows, hcells, fun i j i' j' hshown hshown' hne => ?_⟩
    rw [← hdw]
    exact rows_of_updateContentRect (hdw ▸ hnw) (hdh ▸ hnh) hcontent (hvisible.mpr hshown)
      (hvisible.mpr hshown') hne

theorem applySafe_of_placeable (hw : f.width < 2 ^ 32) (hh : f.height < 2 ^ 32)
    (ht : tile.Accepted) (h : f.Placeable tile) : f.ApplySafe tile := by
  obtain ⟨hcapacity, hrows, hcells, hshown⟩ := h
  obtain ⟨hnw, hnh⟩ := newSize_lt hw hh tile
  have hfit : 4 * (f.newWidth tile * f.newHeight tile) < 2 ^ 63 := by omega
  obtain ⟨grown, hgrow⟩ := f.growFor_ok hfit
  have hdraw := draw_ok (drawTile_grown ht hgrow hrows hcells)
  obtain ⟨hdw, hdh⟩ := size_drawn hgrow hdraw
  have hvisible := fun {i j : Nat} =>
    visible_drawn ht hgrow hrows hcells hdraw (i := i) (j := j)
  obtain ⟨f', hcontent⟩ := updateContentRect_of_rows (hdw ▸ hnw) (hdh ▸ hnh)
    fun i j i' j' hshows hshows' hne => by
      rw [hdw]
      exact hshown i j i' j' (hvisible.mp hshows) (hvisible.mp hshows') hne
  refine ⟨f', _, applyTileInPlace_drawn ht hgrow hdraw hcontent, ?_⟩
  intro row hrow col hcol p hp
  obtain ⟨hx, hy⟩ := hcells row hrow col hcol (by rw [hp]; exact Option.some_ne_none p)
  have hpicture := picture_updateContentRect hcontent
  have hwidth : f'.width = f.newWidth tile := by
    rw [← hdw]
    exact congrArg Picture.width hpicture
  have hheight : f'.height = f.newHeight tile := by
    rw [← hdh]
    exact congrArg Picture.height hpicture
  have hpixel : f'.pixel (tile.x.toNat + col) (tile.y.toNat + row) = p := by
    have heq := congrFun (congrFun (congrArg Picture.pixel hpicture) (tile.x.toNat + col))
      (tile.y.toNat + row)
    refine heq.trans ((pixel_drawn ht hgrow hrows hcells hdraw hx hy).trans ?_)
    rw [paints_of_visible ht hrow hcol, hp]
    rfl
  refine ⟨by omega, by omega, ?_⟩
  rw [getElem?_pixels (by omega) (by omega), hpixel]

/-- A tile that passes the checks is applied without a fault if and only if it can be placed. -/
theorem applySafe_iff (f : FrameBuffer) (hw : f.width < 2 ^ 32) (hh : f.height < 2 ^ 32)
    (tile : FrameTile) (ht : tile.Accepted) : f.ApplySafe tile ↔ f.Placeable tile :=
  ⟨placeable_of_applySafe hw hh ht, applySafe_of_placeable hw hh ht⟩

/-- One opaque pixel. -/
def pixelTile (x y : UInt32) : FrameTile :=
  { id := 0, x, y, w := 1, h := 1, stride := 4, encoding := .rawRgba, bytes := [255, 255, 255, 255] }

theorem applySafe_iff_origin :
    ∃ f, new 1 1 = .ok f ∧ (f.ApplySafe (pixelTile 0 0) ↔ f.Placeable (pixelTile 0 0)) :=
  ⟨_, rfl, applySafe_iff _ (by decide) (by decide) (pixelTile 0 0) (by decide)⟩

/-- At the end of the `u32`s the buffer does not grow far enough for the pixel. -/
theorem not_applySafe_corner :
    ¬ ∀ (f : FrameBuffer), f.width < 2 ^ 32 → f.height < 2 ^ 32 → ∀ tile : FrameTile,
      tile.Accepted → f.ApplySafe tile := by
  intro h
  obtain ⟨f, hf⟩ : ∃ f, new 1 1 = .ok f := new_ok (by decide)
  have hpicture := picture_new hf
  have hwidth : f.width = 1 := congrArg Picture.width hpicture
  have hheight : f.height = 1 := congrArg Picture.height hpicture
  have hsafe := h f (by omega) (by omega) (pixelTile 0xffffffff 0) (by decide)
  have hplace := placeable_of_applySafe (by omega) (by omega) (by decide) hsafe
  have hcell := (hplace.cells 0 (by decide) 0 (by decide) (by decide)).1
  rw [newWidth, hwidth] at hcell
  exact absurd hcell (by decide)

/-! ## A tile that fits -/

theorem pixel_overlay {f' : FrameBuffer} (h : f'.picture = f.picture.overlay tile) {i j : Nat}
    (hi : i < f'.width) (hj : j < f'.height) :
    f'.pixels[j * f'.width + i]? = some
      (if tile.y.toNat ≤ j ∧ j < tile.y.toNat + tile.h.toNat ∧ tile.x.toNat ≤ i ∧
          i < tile.x.toNat + tile.w.toNat then
        (tile.visible (j - tile.y.toNat) (i - tile.x.toNat)).getD (f.pixel i j)
      else f.pixel i j) := by
  rw [getElem?_pixels hi hj]
  exact congrArg some (congrFun (congrFun (congrArg Picture.pixel h) i) j)

/-- A tile that fits is laid over the buffer, and the caller is told whether the size that is shown
has changed; on an error the buffer stays as it was. -/
theorem applyTile_overlay (f : FrameBuffer) (hw : f.width < 2 ^ 32) (hh : f.height < 2 ^ 32)
    (tile : FrameTile) :
    (tile.Accepted → tile.x.toNat + tile.w.toNat < 2 ^ 32 → tile.y.toNat + tile.h.toNat < 2 ^ 32 →
      max (max f.width (tile.x.toNat + tile.w.toNat)) 1 *
        max (max f.height (tile.y.toNat + tile.h.toNat)) 1 < 2 ^ 32 →
      ∃ f' changed, f.applyTileInPlace tile = .ok (f', .ok changed) ∧
        f'.width = max (max f.width (tile.x.toNat + tile.w.toNat)) 1 ∧
        f'.height = max (max f.height (tile.y.toNat + tile.h.toNat)) 1 ∧
        (∀ i j, i < f'.width → j < f'.height → f'.pixels[j * f'.width + i]? = some
          (if tile.y.toNat ≤ j ∧ j < tile.y.toNat + tile.h.toNat ∧ tile.x.toNat ≤ i ∧
              i < tile.x.toNat + tile.w.toNat then
            (tile.visible (j - tile.y.toNat) (i - tile.x.toNat)).getD (f.pixel i j)
          else f.pixel i j)) ∧
        (changed = true ↔ f'.displaySize ≠ f.displaySize)) ∧
    ∀ f' message, f.applyTileInPlace tile = .ok (f', .error message) → f' = f := by
  refine ⟨fun ht hx hy harea => ?_, fun f' message => applyTileInPlace_error⟩
  obtain ⟨f', changed, happly, hpicture⟩ := picture_applyTile f ht hx hy hw hh harea
  have hplace := applyTile_eq_ok.mp happly
  refine ⟨f', changed, hplace, congrArg Picture.width hpicture, congrArg Picture.height hpicture,
    fun i j hi hj => pixel_overlay hpicture hi hj, ?_⟩
  cases applied hplace with
  | drawn _ _ _ _ =>
    rw [decide_eq_true_iff]
    exact ne_comm

theorem applyTile_overlay_right :
    ∃ f f' changed, new 1 1 = .ok f ∧
      f.applyTileInPlace (pixelTile 1 0) = .ok (f', .ok changed) ∧ f'.width = 2 ∧ f'.height = 1 := by
  obtain ⟨f, hf⟩ : ∃ f, new 1 1 = .ok f := new_ok (by decide)
  have hpicture := picture_new hf
  have hwidth : f.width = 1 := congrArg Picture.width hpicture
  have hheight : f.height = 1 := congrArg Picture.height hpicture
  obtain ⟨f', changed, happly, hwidth', hheight', -⟩ :=
    (applyTile_overlay f (by omega) (by omega) (pixelTile 1 0)).1 (by decide) (by decide)
      (by decide) (by rw [hwidth, hheight]; decide)
  rw [hwidth] at hwidth'
  rw [hheight] at hheight'
  exact ⟨f, f', changed, hf, happly, hwidth', hheight'⟩

/-- The viewer's handling of a tile, told from what the call leaves behind. -/
theorem applyOrDrop_eq (f : FrameBuffer) (tile : FrameTile) :
    f.applyOrDrop tile = (f.applyTileInPlace tile).map (·.1) := by
  unfold applyOrDrop applyTile
  cases hplace : f.applyTileInPlace tile with
  | error fault => rfl
  | ok called =>
    obtain ⟨f', result⟩ := called
    cases result with
    | error message =>
      obtain rfl := applyTileInPlace_error hplace
      rfl
    | ok changed => rfl

end FrameBuffer
end VBox
