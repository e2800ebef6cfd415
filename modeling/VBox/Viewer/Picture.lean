import VBox.Viewer.Frame

/-!
# Viewer.Picture

What a frame buffer shows, apart from how it stores it. A `Picture` has a size and a colour at every
position, transparent outside of its size. A resize clears it or only changes the size; a tile
lays its visible pixels over it.

* `picture_resizeForRemoteSize`, `picture_applyTile`: the operations of `FrameBuffer` do this.
* `applied`: what a call of `apply_tile` that returns has done.
* `pixels_eq_of_picture_eq`: a picture determines the pixels of the buffer.
-/

namespace VBox

open ByteCodec Raster

@[ext] structure Picture where
  width : Nat
  height : Nat
  pixel : Nat → Nat → UInt32

namespace Picture

/-- `resize_for_remote_size`: a picture that shrinks in either direction is cleared. -/
def resizeTo (p : Picture) (width height : Nat) : Picture :=
  { width, height
    pixel := if width < p.width ∨ height < p.height then fun _ _ => transparentPixel else p.pixel }

end Picture

/-- The pixel of a tile at a column and a row, if it is visible. -/
def FrameTile.visible (tile : FrameTile) (row col : Nat) : Option UInt32 :=
  let byte (k : Nat) : UInt8 := tile.bytes.getD (row * tile.stride.toNat + col * 4 + k) 0
  if byte 3 < visibleAlphaThreshold then none
  else some (rgbaToPixel (byte 0).toUInt32 (byte 1).toUInt32 (byte 2).toUInt32 (byte 3).toUInt32)

/-- The tiles that pass the checks of `apply_tile`. -/
structure FrameTile.Accepted (tile : FrameTile) : Prop where
  encoding : tile.encoding = .rawRgba
  stride : tile.w.toNat * 4 ≤ tile.stride.toNat
  needed : tile.stride.toNat * tile.h.toNat < 2 ^ 32
  bytes : tile.stride.toNat * tile.h.toNat ≤ tile.bytes.length

/-- `apply_tile`: the picture grows to hold the tile and shows its visible pixels. -/
def Picture.overlay (p : Picture) (tile : FrameTile) : Picture :=
  { width := max (max p.width (tile.x.toNat + tile.w.toNat)) 1
    height := max (max p.height (tile.y.toNat + tile.h.toNat)) 1
    pixel := fun i j =>
      if tile.y.toNat ≤ j ∧ j < tile.y.toNat + tile.h.toNat ∧ tile.x.toNat ≤ i ∧
          i < tile.x.toNat + tile.w.toNat then
        (tile.visible (j - tile.y.toNat) (i - tile.x.toNat)).getD (p.pixel i j)
      else p.pixel i j }

namespace FrameBuffer

def pixel (f : FrameBuffer) (i j : Nat) : UInt32 :=
  if i < f.width ∧ j < f.height then f.pixels.getD (j * f.width + i) transparentPixel
  else transparentPixel

def picture (f : FrameBuffer) : Picture :=
  { width := f.width, height := f.height, pixel := f.pixel }

section Pixel

variable {f g : FrameBuffer} {i j : Nat}

theorem getElem?_pixels (hi : i < f.width) (hj : j < f.height) :
    f.pixels[j * f.width + i]? = some (f.pixel i j) := by
  have hlt : j * f.width + i < f.pixels.length := by rw [f.pixels_length]; exact index_lt hi hj
  rw [pixel, if_pos ⟨hi, hj⟩, List.getD_eq_getElem?_getD, List.getElem?_eq_getElem hlt]
  rfl

theorem pixel_eq (hi : i < f.width) (hj : j < f.height) {p : UInt32}
    (h : f.pixels[j * f.width + i]? = some p) : f.pixel i j = p := by
  rw [getElem?_pixels hi hj] at h
  exact Option.some.inj h

theorem pixel_outside (h : ¬ (i < f.width ∧ j < f.height)) : f.pixel i j = transparentPixel :=
  if_neg h

theorem pixel_withPixels {pixels : List UInt32} {hlen : pixels.length = f.pixels.length}
    (hi : i < f.width) (hj : j < f.height) {p : UInt32} (h : pixels[j * f.width + i]? = some p) :
    (f.withPixels pixels hlen).pixel i j = p :=
  pixel_eq (f := f.withPixels pixels hlen) hi hj h

/-- Two buffers that show the same picture hold the same pixels. -/
theorem pixels_eq_of_picture_eq (h : f.picture = g.picture) : f.pixels = g.pixels := by
  have hw : f.width = g.width := congrArg Picture.width h
  have hh : f.height = g.height := congrArg Picture.height h
  refine ext_positions f.pixels_length (by rw [g.pixels_length, hw, hh]) fun i j hi hj => ?_
  have hp : f.pixel i j = g.pixel i j := congrFun (congrFun (congrArg Picture.pixel h) i) j
  rw [getElem?_pixels hi hj, hp, hw, getElem?_pixels (by omega) (by omega)]

end Pixel

/-! ## Resizing -/

section Resize

variable (f : FrameBuffer) {w h : Nat} (hfit : 4 * (w * h) < 2 ^ 63)

theorem pixel_preserved (i j : Nat) :
    (f.preserved w h hfit).pixel i j = if i < w ∧ j < h then f.pixel i j else transparentPixel := by
  by_cases hin : i < w ∧ j < h
  · rw [if_pos hin]
    have hblank : (List.replicate (w * h) transparentPixel)[j * w + i]? = some transparentPixel := by
      rw [List.getElem?_replicate, if_pos (index_lt hin.1 hin.2)]
    refine pixel_eq (f := f.preserved w h hfit) hin.1 hin.2 ?_
    have hrows := getElem?_copyRows (j := j) (List.length_replicate (a := transparentPixel)
      (n := w * h)) f.pixels_length (Nat.min_le_right f.width w) (Nat.min_le_left f.width w)
      (Nat.min_le_right f.height h) (Nat.min_le_left f.height h) hin.1
    rw [hblank] at hrows
    refine hrows.trans ?_
    by_cases hold : i < f.width ∧ j < f.height
    · rw [if_pos (by omega), getElem?_pixels hold.1 hold.2]
    · rw [if_neg (by omega), pixel_outside hold]
  · rw [if_neg hin]
    exact pixel_outside hin

theorem pixel_cleared (i j : Nat) : (f.cleared w h hfit).pixel i j = transparentPixel := by
  by_cases hin : i < w ∧ j < h
  · refine pixel_eq (f := f.cleared w h hfit) hin.1 hin.2 ?_
    show (List.replicate (w * h) transparentPixel)[j * w + i]? = some transparentPixel
    rw [List.getElem?_replicate, if_pos (index_lt hin.1 hin.2)]
  · exact pixel_outside hin

/-- Growing changes the size and no pixel: what is new is transparent, as it was outside. -/
theorem pixel_grown (hw : f.width ≤ w) (hh : f.height ≤ h) :
    (f.preserved w h hfit).pixel = f.pixel := by
  funext i j
  rw [pixel_preserved]
  split
  · rfl
  · rw [pixel_outside]
    omega

include hfit

/-- A size that a `Vec` can hold is taken. -/
theorem resizeForRemoteSize_ok : ∃ f', f.resizeForRemoteSize w h = .ok f' := by
  unfold resizeForRemoteSize
  rw [f.replaceBufferClearing_ok hfit, f.replaceBufferPreservingPixels_ok hfit]
  split
  · exact ⟨f, rfl⟩
  · split
    · exact ⟨_, rfl⟩
    · exact ⟨_, rfl⟩

theorem new_ok : ∃ f, new w h = .ok f := by
  unfold new resize
  rw [replaceBufferPreservingPixels_ok _ hfit]
  split
  · exact ⟨_, rfl⟩
  · exact ⟨_, rfl⟩

end Resize

section Resized

variable {f f' : FrameBuffer} {w h : Nat}

theorem replaceBufferPreservingPixels_eq_ok
    (hok : f.replaceBufferPreservingPixels w h = .ok f') :
    ∃ hfit, f' = f.preserved w h hfit := by
  unfold replaceBufferPreservingPixels at hok
  split at hok
  · rename_i hfit
    cases hok
    exact ⟨hfit, rfl⟩
  · cases hok

theorem replaceBufferClearing_eq_ok (hok : f.replaceBufferClearing w h = .ok f') :
    ∃ hfit, f' = f.cleared w h hfit := by
  unfold replaceBufferClearing at hok
  split at hok
  · rename_i hfit
    cases hok
    exact ⟨hfit, rfl⟩
  · cases hok

theorem picture_resizeForRemoteSize (hok : f.resizeForRemoteSize w h = .ok f') :
    f'.picture = f.picture.resizeTo w h := by
  unfold resizeForRemoteSize at hok
  split at hok
  · rename_i hsame
    obtain ⟨rfl, rfl⟩ := hsame
    cases hok
    simp [Picture.resizeTo, picture]
  · obtain ⟨replaced, hreplaced, hok⟩ := bind_eq_ok.1 hok
    cases hok
    by_cases hshrink : w < f.width ∨ h < f.height
    · rw [if_pos hshrink] at hreplaced
      obtain ⟨hfit, rfl⟩ := replaceBufferClearing_eq_ok hreplaced
      refine Picture.ext rfl rfl ?_
      have : w < f.picture.width ∨ h < f.picture.height := hshrink
      rw [Picture.resizeTo, if_pos this]
      funext i j
      exact pixel_cleared f hfit i j
    · rw [if_neg hshrink] at hreplaced
      obtain ⟨hfit, rfl⟩ := replaceBufferPreservingPixels_eq_ok hreplaced
      refine Picture.ext rfl rfl ?_
      have : ¬ (w < f.picture.width ∨ h < f.picture.height) := hshrink
      rw [Picture.resizeTo, if_neg this]
      exact pixel_grown f hfit (by omega) (by omega)

theorem picture_new (hok : new w h = .ok f) :
    f.picture = { width := w, height := h, pixel := fun _ _ => transparentPixel } := by
  unfold new resize at hok
  split at hok
  · rename_i h0
    obtain ⟨rfl, rfl⟩ : 0 = w ∧ 0 = h := h0
    cases hok
    refine Picture.ext rfl rfl ?_
    funext i j
    simp [picture, pixel]
  · obtain ⟨replaced, hreplaced, hok⟩ := bind_eq_ok.1 hok
    obtain ⟨hfit, rfl⟩ := replaceBufferPreservingPixels_eq_ok hreplaced
    cases hok
    refine Picture.ext rfl rfl ?_
    funext i j
    refine (pixel_preserved _ hfit i j).trans ?_
    split
    · exact if_neg (c := i < 0 ∧ j < 0) fun hc => absurd hc.1 (Nat.not_lt_zero i)
    · rfl

end Resized

/-! ## Drawing a tile -/

variable {tile : FrameTile}

theorem FrameTile.Accepted.row_lt (ht : tile.Accepted) {row col k : Nat} (hrow : row < tile.h.toNat)
    (hcol : col < tile.w.toNat) (hk : k < 4) :
    row * tile.stride.toNat + col * 4 + k < tile.bytes.length := by
  have hrows : (row + 1) * tile.stride.toNat ≤ tile.h.toNat * tile.stride.toNat :=
    Nat.mul_le_mul_right _ hrow
  have hstride := ht.stride
  have hbytes := ht.bytes
  rw [Nat.succ_mul] at hrows
  rw [Nat.mul_comm] at hbytes
  omega

theorem drawPixel_put (ht : tile.Accepted) {row col dstRow : Nat} {pixels : List UInt32}
    (hrow : row < tile.h.toNat) (hcol : col < tile.w.toNat)
    (hdst : tile.visible row col ≠ none → dstRow + col < pixels.length) :
    drawPixel tile (row * tile.stride.toNat) dstRow pixels col =
      .ok (put pixels (dstRow + col) (tile.visible row col)) := by
  have hread : ∀ k, k < 4 → index tile.bytes (row * tile.stride.toNat + col * 4 + k) =
      .ok (tile.bytes.getD (row * tile.stride.toNat + col * 4 + k) 0) := by
    intro k hk
    have hlt := FrameTile.Accepted.row_lt ht hrow hcol hk
    rw [List.getD_eq_getElem?_getD, List.getElem?_eq_getElem hlt]
    exact index_ok (List.getElem?_eq_getElem hlt)
  have hoff : u32Fit (col * 4) = .ok (col * 4) := by
    have := ht.stride
    have := tile.stride.toNat_lt
    exact u32Fit_ok (by omega)
  have h0 := hread 0 (by omega)
  rw [Nat.add_zero] at h0
  simp only [drawPixel, hoff, h0, hread 1 (by omega), hread 2 (by omega), hread 3 (by omega), bind,
    Except.bind, FrameTile.visible, Nat.add_zero]
  split
  · rfl
  · rename_i hvisible
    rw [if_pos (hdst (by simp only [FrameTile.visible, if_neg hvisible]; exact Option.some_ne_none _))]
    rfl

theorem drawRow_put (ht : tile.Accepted) {row dstRow n : Nat} {pixels : List UInt32}
    (hrow : row < tile.h.toNat) (hlen : pixels.length = n)
    (hcells : ∀ col, col < tile.w.toNat → tile.visible row col ≠ none → dstRow + col < n) :
    (List.range tile.w.toNat).foldlM (drawPixel tile (row * tile.stride.toNat) dstRow) pixels =
      .ok (paintRow (tile.visible row) dstRow tile.w.toNat pixels) :=
  (foldlM_ok (f := drawPixel tile (row * tile.stride.toNat) dstRow) (I := (·.length = n))
    (l := List.range tile.w.toNat) (fun col hcol pixels hlen => by
      rw [List.mem_range] at hcol
      exact ⟨drawPixel_put ht hrow hcol (hlen ▸ hcells col hcol), by simpa using hlen⟩) hlen).1

/-- A tile whose rows have an index and whose visible pixels have a place is drawn. -/
theorem drawTile_put (ht : tile.Accepted) {W n : Nat} {pixels : List UInt32} (hW : 0 < W)
    (hlen : pixels.length = n)
    (hrows : ∀ row, row < tile.h.toNat → (tile.y.toNat + row) * W + tile.x.toNat < 2 ^ 32)
    (hcells : ∀ row, row < tile.h.toNat → ∀ col, col < tile.w.toNat →
      tile.visible row col ≠ none → (tile.y.toNat + row) * W + tile.x.toNat + col < n) :
    drawTile tile W pixels =
      .ok (paint W tile.x.toNat tile.y.toNat tile.w.toNat tile.h.toNat tile.visible pixels) := by
  refine (foldlM_ok (f := drawRow tile W) (I := (·.length = n)) (l := List.range tile.h.toNat)
    (fun row hrow pixels hlen => ⟨?_, by simpa using hlen⟩) hlen).1
  rw [List.mem_range] at hrow
  have hsrc : row * tile.stride.toNat < 2 ^ 32 := by
    have := Nat.mul_le_mul_right tile.stride.toNat (Nat.le_of_lt hrow)
    have := ht.needed
    rw [Nat.mul_comm] at this
    omega
  have hstart := hrows row hrow
  have hy : tile.y.toNat + row ≤ (tile.y.toNat + row) * W := Nat.le_mul_of_pos_right _ hW
  simp only [drawRow, u32Fit_ok hsrc, u32Fit_ok (show tile.y.toNat + row < 2 ^ 32 by omega),
    u32Fit_ok (show (tile.y.toNat + row) * W < 2 ^ 32 by omega), u32Fit_ok hstart, bind,
    Except.bind]
  exact drawRow_put ht hrow hlen (hcells row hrow)

theorem drawRow_loop (ht : tile.Accepted) {W H row : Nat} {pixels : List UInt32}
    (hrow : row < tile.h.toNat) (hlen : pixels.length = W * H)
    (hright : tile.x.toNat + tile.w.toNat ≤ W) (hbottom : tile.y.toNat + tile.h.toNat ≤ H) :
    (List.range tile.w.toNat).foldlM (drawPixel tile (row * tile.stride.toNat)
        ((tile.y.toNat + row) * W + tile.x.toNat)) pixels =
      .ok (paintRow (tile.visible row) ((tile.y.toNat + row) * W + tile.x.toNat) tile.w.toNat
        pixels) := by
  have hend := mul_add_le hright (y := tile.y.toNat + row) (H := H) (by omega)
  exact drawRow_put ht hrow hlen fun col hcol _ => by omega

theorem drawTile_eq (ht : tile.Accepted) {W H : Nat} {pixels : List UInt32}
    (hlen : pixels.length = W * H) (harea : W * H < 2 ^ 32)
    (hright : tile.x.toNat + tile.w.toNat ≤ W) (hbottom : tile.y.toNat + tile.h.toNat ≤ H)
    (hW : 0 < W) :
    drawTile tile W pixels =
      .ok (paint W tile.x.toNat tile.y.toNat tile.w.toNat tile.h.toNat tile.visible pixels) := by
  have hend := fun row (hrow : row < tile.h.toNat) =>
    mul_add_le hright (y := tile.y.toNat + row) (H := H) (by omega)
  refine drawTile_put ht hW hlen (fun row hrow => ?_) (fun row hrow col hcol _ => ?_)
  · have := hend row hrow
    omega
  · have := hend row hrow
    omega

/-- However large the buffer, what is drawn without a panic is the tile. -/
theorem drawTile_of_ok (ht : tile.Accepted) {W H : Nat} {pixels pixels' : List UInt32}
    (hlen : pixels.length = W * H) (hright : tile.x.toNat + tile.w.toNat ≤ W)
    (hbottom : tile.y.toNat + tile.h.toNat ≤ H) (h : drawTile tile W pixels = .ok pixels') :
    pixels' = paint W tile.x.toNat tile.y.toNat tile.w.toNat tile.h.toNat tile.visible pixels := by
  refine foldlM_eq (f := drawRow tile W) (I := (·.length = W * H)) (l := List.range tile.h.toNat)
    (fun row hrow pixels pixels' hlen hdraw => ?_) hlen h
  simp only [drawRow, bind_eq_ok] at hdraw
  obtain ⟨srcRow, hsrc, y, hy, start, hstart, dstRow, hdst, hloop⟩ := hdraw
  obtain rfl := u32Fit_eq hsrc
  obtain rfl := u32Fit_eq hy
  obtain rfl := u32Fit_eq hstart
  obtain rfl := u32Fit_eq hdst
  rw [drawRow_loop ht (List.mem_range.1 hrow) hlen hright hbottom] at hloop
  cases hloop
  exact ⟨rfl, by simpa using hlen⟩

/-! ## The content rectangle stays inside -/

theorem scanContent_bounds (f : FrameBuffer) (h : 0 < f.scanContent.count) :
    f.scanContent.minX ≤ f.scanContent.maxX ∧ f.scanContent.maxX < f.width ∧
      f.scanContent.minY ≤ f.scanContent.maxY ∧ f.scanContent.maxY < f.height := by
  -- once a pixel was seen, its position lies between the bounds and in the buffer
  let I : ContentScan → Prop := fun s =>
    (s.count = 0 ∧ s.maxX = 0 ∧ s.maxY = 0) ∨
      (s.minX ≤ s.maxX ∧ s.maxX < f.width ∧ s.minY ≤ s.maxY ∧ s.maxY < f.height)
  have hsee : ∀ x y p, x < f.width → y < f.height → ∀ s, I s → I (s.see x y p) := by
    intro x y p hx hy s hs
    unfold ContentScan.see
    split
    · exact hs
    · refine .inr ?_
      simp only [I] at hs ⊢
      omega
  have hI : I f.scanContent := by
    refine List.foldlRecOn (motive := I) _ _ (.inl ⟨rfl, rfl, rfl⟩) fun s hs y hy => ?_
    refine List.foldlRecOn (motive := I) _ _ hs fun s hs x hx => ?_
    exact hsee x y _ (List.mem_range.1 hx) (List.mem_range.1 hy) s hs
  simp only [I] at hI
  omega

theorem trimContentRect_eq (rect : FrameRect) (hw : 0 < rect.w) (hh : 0 < rect.h) :
    trimContentRect rect = rect := by
  unfold trimContentRect contentEdgeTrimPx
  split
  · rfl
  · cases rect
    simp only [FrameRect.new, Nat.add_zero, Nat.zero_mul, Nat.sub_zero] at hw hh ⊢
    congr 1 <;> omega

/-- In a buffer with fewer than `2 ^ 32` pixels the content rectangle is found, and the picture
stays as it is. -/
theorem updateContentRect_ok (f : FrameBuffer) (harea : f.width * f.height < 2 ^ 32)
    (hw : f.width < 2 ^ 32) (hh : f.height < 2 ^ 32) :
    ∃ f', f.updateContentRect = .ok f' ∧ f'.picture = f.picture := by
  unfold updateContentRect
  dsimp only
  split
  · exact ⟨_, rfl, rfl⟩
  · rename_i hcount
    obtain ⟨hx, hxw, hy, hyh⟩ := f.scanContent_bounds (Nat.pos_of_ne_zero hcount)
    obtain ⟨rect, hrect, -⟩ := trimUniformPadding_ok (.new f.scanContent.minX
      f.scanContent.minY (f.scanContent.maxX - f.scanContent.minX + 1)
      (f.scanContent.maxY - f.scanContent.minY + 1)) f.pixels_length harea hw hh
      (by constructor <;> simp only [FrameRect.new] <;> omega)
    rw [trimContentRect_eq _ (by simp [FrameRect.new]) (by simp [FrameRect.new]), hrect]
    exact ⟨_, rfl, rfl⟩

/-! ## A tile on a picture -/

section Call

variable {f f' grown drawn : FrameBuffer}

/-- Where the grown buffer can be allocated. -/
theorem growFor_ok (f : FrameBuffer) (hfit : 4 * (f.newWidth tile * f.newHeight tile) < 2 ^ 63) :
    ∃ grown, f.growFor tile = .ok grown := by
  unfold growFor growPreservingPixels
  rw [f.replaceBufferPreservingPixels_ok hfit]
  split
  · split
    · exact ⟨f, rfl⟩
    · exact ⟨_, rfl⟩
  · exact ⟨f, rfl⟩

theorem growFor_spec (hgrow : f.growFor tile = .ok grown) :
    grown.width = f.newWidth tile ∧ grown.height = f.newHeight tile ∧ grown.pixel = f.pixel := by
  unfold growFor at hgrow
  split at hgrow
  · rename_i hne
    rw [growPreservingPixels, if_neg (by omega)] at hgrow
    obtain ⟨hfit, rfl⟩ := replaceBufferPreservingPixels_eq_ok hgrow
    refine ⟨rfl, rfl, pixel_grown f hfit ?_ ?_⟩
    · unfold newWidth
      omega
    · unfold newHeight
      omega
  · rename_i heq
    simp only [not_or, not_not] at heq
    cases hgrow
    exact ⟨heq.1.symm, heq.2.symm, rfl⟩

/-- A tile that ends below `2 ^ 32` fits in the grown buffer. -/
theorem newWidth_eq (f : FrameBuffer) (hx : tile.x.toNat + tile.w.toNat < 2 ^ 32) :
    f.newWidth tile = max (max f.width (tile.x.toNat + tile.w.toNat)) 1 := by
  unfold newWidth
  omega

theorem newHeight_eq (f : FrameBuffer) (hy : tile.y.toNat + tile.h.toNat < 2 ^ 32) :
    f.newHeight tile = max (max f.height (tile.y.toNat + tile.h.toNat)) 1 := by
  unfold newHeight
  omega

theorem draw_ok {pixels : List UInt32} (hdraw : drawTile tile f.width f.pixels = .ok pixels) :
    f.draw tile = .ok (f.withPixels pixels (drawTile_length hdraw)) := by
  unfold draw
  split
  · rename_i e he
    cases hdraw.symm.trans he
  · rename_i pixels' hpixels
    cases hdraw.symm.trans hpixels
    rfl

theorem draw_eq_ok (h : f.draw tile = .ok drawn) :
    ∃ pixels, ∃ hdraw : drawTile tile f.width f.pixels = .ok pixels,
      drawn = f.withPixels pixels (drawTile_length hdraw) := by
  unfold draw at h
  split at h
  · cases h
  · rename_i pixels hdraw
    cases h
    exact ⟨pixels, hdraw, rfl⟩

theorem applyTileInPlace_of_accepted (f : FrameBuffer) (ht : tile.Accepted) :
    f.applyTileInPlace tile = do
      let grown ← f.growFor tile
      let drawn ← grown.draw tile
      let f' ← drawn.updateContentRect
      return (f', .ok (decide (f.displaySize ≠ f'.displaySize))) := by
  have hstride := ht.stride
  have hlt := tile.stride.toNat_lt
  simp only [applyTileInPlace, ht.encoding, ne_eq, not_true_eq_false, if_false,
    if_neg (show ¬ 2 ^ 32 ≤ tile.w.toNat * 4 by omega), if_neg (Nat.not_lt.2 hstride),
    if_neg (Nat.not_le.2 ht.needed), if_neg (Nat.not_lt.2 ht.bytes)]

/-- All other tiles are refused, and the buffer stays as it was. -/
theorem applyTileInPlace_of_not_accepted (f : FrameBuffer) (ht : ¬ tile.Accepted) :
    ∃ message, f.applyTileInPlace tile = .ok (f, .error message) := by
  unfold applyTileInPlace
  by_cases hencoding : tile.encoding ≠ .rawRgba
  · exact ⟨_, if_pos hencoding⟩
  by_cases hmin : 2 ^ 32 ≤ tile.w.toNat * 4
  · simp only [if_neg hencoding, if_pos hmin]
    exact ⟨_, rfl⟩
  by_cases hshort : tile.stride.toNat < tile.w.toNat * 4
  · simp only [if_neg hencoding, if_neg hmin, if_pos hshort]
    exact ⟨_, rfl⟩
  by_cases hneeded : 2 ^ 32 ≤ tile.stride.toNat * tile.h.toNat
  · simp only [if_neg hencoding, if_neg hmin, if_neg hshort, if_pos hneeded]
    exact ⟨_, rfl⟩
  by_cases hbytes : tile.bytes.length < tile.stride.toNat * tile.h.toNat
  · simp only [if_neg hencoding, if_neg hmin, if_neg hshort, if_neg hneeded, if_pos hbytes]
    exact ⟨_, rfl⟩
  · exact absurd ⟨not_not.mp hencoding, Nat.not_lt.mp hshort, Nat.not_le.mp hneeded,
      Nat.not_lt.mp hbytes⟩ ht

/-- What a call that returns has done: the tile is drawn, or it is refused. -/
inductive Applied (f : FrameBuffer) (tile : FrameTile) (f' : FrameBuffer) :
    Except String Bool → Prop
  | drawn {grown drawn : FrameBuffer} (ht : tile.Accepted) (hgrow : f.growFor tile = .ok grown)
      (hdraw : grown.draw tile = .ok drawn) (hcontent : drawn.updateContentRect = .ok f') :
      Applied f tile f' (.ok (decide (f.displaySize ≠ f'.displaySize)))
  | refused {message : String} (ht : ¬ tile.Accepted) (hsame : f' = f) :
      Applied f tile f' (.error message)

theorem applied {result : Except String Bool} (h : f.applyTileInPlace tile = .ok (f', result)) :
    Applied f tile f' result := by
  by_cases ht : tile.Accepted
  · rw [applyTileInPlace_of_accepted f ht] at h
    obtain ⟨grown, hgrow, h⟩ := bind_eq_ok.1 h
    obtain ⟨drawn, hdraw, h⟩ := bind_eq_ok.1 h
    obtain ⟨f'', hcontent, h⟩ := bind_eq_ok.1 h
    cases h
    exact .drawn ht hgrow hdraw hcontent
  · obtain ⟨message, hplace⟩ := applyTileInPlace_of_not_accepted f ht
    cases hplace.symm.trans h
    exact .refused ht rfl

theorem applyTileInPlace_drawn (ht : tile.Accepted) (hgrow : f.growFor tile = .ok grown)
    (hdraw : grown.draw tile = .ok drawn) (hcontent : drawn.updateContentRect = .ok f') :
    f.applyTileInPlace tile = .ok (f', .ok (decide (f.displaySize ≠ f'.displaySize))) := by
  rw [applyTileInPlace_of_accepted f ht]
  exact bind_eq_ok.2 ⟨grown, hgrow, bind_eq_ok.2 ⟨drawn, hdraw, bind_eq_ok.2 ⟨f', hcontent, rfl⟩⟩⟩

/-- A call that returns an error leaves the buffer as it was. -/
theorem applyTileInPlace_error {message : String}
    (h : f.applyTileInPlace tile = .ok (f', .error message)) : f' = f := by
  cases applied h with
  | refused _ hsame => exact hsame

theorem applyTile_eq_ok {changed : Bool} :
    f.applyTile tile = .ok (f', changed) ↔ f.applyTileInPlace tile = .ok (f', .ok changed) := by
  unfold applyTile
  split
  · rename_i h
    simp [h]
  · rename_i h
    simp [h]
  · rename_i h
    simp [h]

theorem applyTile_eq_rejected {message : String} :
    f.applyTile tile = .error (.rejected message) ↔
      ∃ f', f.applyTileInPlace tile = .ok (f', .error message) := by
  unfold applyTile
  split
  · rename_i h
    simp [h]
  · rename_i h
    simp [h]
  · rename_i h
    simp [h]

theorem picture_updateContentRect (h : f.updateContentRect = .ok f') : f'.picture = f.picture := by
  simp only [updateContentRect] at h
  split at h
  · cases h; rfl
  · split at h
    · cases h
    · cases h; rfl

/-- The grown buffer with the tile on it. -/
theorem picture_drawn (hx : tile.x.toNat + tile.w.toNat < 2 ^ 32)
    (hy : tile.y.toNat + tile.h.toNat < 2 ^ 32) (hgrow : f.growFor tile = .ok grown)
    {pixels : List UInt32} (hlen : pixels.length = grown.pixels.length)
    (hpixels : pixels = paint grown.width tile.x.toNat tile.y.toNat tile.w.toNat tile.h.toNat
      tile.visible grown.pixels) :
    (grown.withPixels pixels hlen).picture = f.picture.overlay tile := by
  obtain ⟨hgw, hgh, hgp⟩ := growFor_spec hgrow
  rw [f.newWidth_eq hx] at hgw
  rw [f.newHeight_eq hy] at hgh
  have hright : tile.x.toNat + tile.w.toNat ≤ grown.width := by omega
  refine Picture.ext hgw hgh ?_
  funext i j
  have hold : grown.pixel i j = f.pixel i j := congrFun (congrFun hgp i) j
  simp only [Picture.overlay, picture, ← hold]
  by_cases hin : i < grown.width ∧ j < grown.height
  · apply pixel_withPixels hin.1 hin.2
    rw [hpixels, getElem?_paint hin.1 hright, getElem?_pixels hin.1 hin.2]
    rfl
  · rw [if_neg (by omega), pixel_outside hin]
    exact pixel_outside hin

/-- An accepted tile that stays below `2 ^ 32` in each direction and in the area of the grown buffer
is drawn, and shows on the picture as `overlay` says. -/
theorem picture_applyTile (f : FrameBuffer) (ht : tile.Accepted)
    (hx : tile.x.toNat + tile.w.toNat < 2 ^ 32) (hy : tile.y.toNat + tile.h.toNat < 2 ^ 32)
    (hw : f.width < 2 ^ 32) (hh : f.height < 2 ^ 32)
    (harea : max (max f.width (tile.x.toNat + tile.w.toNat)) 1 *
      max (max f.height (tile.y.toNat + tile.h.toNat)) 1 < 2 ^ 32) :
    ∃ f' changed, f.applyTile tile = .ok (f', changed) ∧ f'.picture = f.picture.overlay tile := by
  rw [← f.newWidth_eq hx, ← f.newHeight_eq hy] at harea
  have hfit : 4 * (f.newWidth tile * f.newHeight tile) < 2 ^ 63 := by omega
  obtain ⟨grown, hgrow⟩ := f.growFor_ok hfit
  obtain ⟨hgw, hgh, -⟩ := growFor_spec hgrow
  rw [← hgw, ← hgh] at harea
  rw [f.newWidth_eq hx] at hgw
  rw [f.newHeight_eq hy] at hgh
  have hright : tile.x.toNat + tile.w.toNat ≤ grown.width := by omega
  have hbottom : tile.y.toNat + tile.h.toNat ≤ grown.height := by omega
  have hdraw := drawTile_eq ht grown.pixels_length harea hright hbottom (by omega)
  -- the drawn buffer, before the content rectangle is found
  obtain ⟨f', hf', hpic⟩ := updateContentRect_ok (grown.withPixels _ (drawTile_length hdraw)) harea
    (by show grown.width < _; omega) (by show grown.height < _; omega)
  exact ⟨f', _, applyTile_eq_ok.2 (applyTileInPlace_drawn ht hgrow (draw_ok hdraw) hf'),
    hpic.trans (picture_drawn hx hy hgrow _ rfl)⟩

/-- A tile that is applied, to a buffer of any size, was accepted and shows on the picture. -/
theorem picture_of_applyTile {changed : Bool}
    (hx : tile.x.toNat + tile.w.toNat < 2 ^ 32) (hy : tile.y.toNat + tile.h.toNat < 2 ^ 32)
    (h : f.applyTile tile = .ok (f', changed)) :
    tile.Accepted ∧ f'.picture = f.picture.overlay tile := by
  cases applied (applyTile_eq_ok.1 h) with
  | @drawn grown drawn ht hgrow hdraw hcontent =>
    obtain ⟨hgw, hgh, -⟩ := growFor_spec hgrow
    rw [f.newWidth_eq hx] at hgw
    rw [f.newHeight_eq hy] at hgh
    obtain ⟨pixels, hpixels, rfl⟩ := draw_eq_ok hdraw
    have hpaint := drawTile_of_ok ht grown.pixels_length (by omega) (by omega) hpixels
    exact ⟨ht, (picture_updateContentRect hcontent).trans (picture_drawn hx hy hgrow _ hpaint)⟩

theorem not_accepted_of_rejected {message : String}
    (h : f.applyTile tile = .error (.rejected message)) : ¬ tile.Accepted := by
  obtain ⟨f', hplace⟩ := applyTile_eq_rejected.1 h
  cases applied hplace with
  | refused ht _ => exact ht

end Call

/-! ## Several tiles -/

/-- A tile as the viewer applies it: one that is rejected is dropped. -/
def applyOrDrop (f : FrameBuffer) (tile : FrameTile) : Except Fault FrameBuffer :=
  match f.applyTile tile with
  | .ok (f', _) => .ok f'
  | .error (.rejected _) => .ok f
  | .error (.panicked fault) => .error fault

def applyTiles (f : FrameBuffer) (tiles : List FrameTile) : Except Fault FrameBuffer :=
  tiles.foldlM applyOrDrop f

end FrameBuffer

namespace FrameTile

instance (tile : FrameTile) : Decidable tile.Accepted :=
  decidable_of_iff (tile.encoding = .rawRgba ∧ tile.w.toNat * 4 ≤ tile.stride.toNat ∧
      tile.stride.toNat * tile.h.toNat < 2 ^ 32 ∧
      tile.stride.toNat * tile.h.toNat ≤ tile.bytes.length)
    ⟨fun ⟨h1, h2, h3, h4⟩ => ⟨h1, h2, h3, h4⟩, fun ⟨h1, h2, h3, h4⟩ => ⟨h1, h2, h3, h4⟩⟩

/-- The colour that a tile gives a pixel, if it gives it one. -/
def paints (tile : FrameTile) (i j : Nat) : Option UInt32 :=
  if tile.Accepted ∧ tile.y.toNat ≤ j ∧ j < tile.y.toNat + tile.h.toNat ∧ tile.x.toNat ≤ i ∧
      i < tile.x.toNat + tile.w.toNat then
    tile.visible (j - tile.y.toNat) (i - tile.x.toNat)
  else none

/-- A tile that ends below `2 ^ 32`. -/
structure Fits (tile : FrameTile) : Prop where
  right : tile.x.toNat + tile.w.toNat < 2 ^ 32
  bottom : tile.y.toNat + tile.h.toNat < 2 ^ 32

/-- The colour that the last tile to paint a pixel gives it. -/
def lastPaint (tiles : List FrameTile) (i j : Nat) : Option UInt32 :=
  tiles.foldr (fun tile later => later.or (tile.paints i j)) none

@[simp] theorem lastPaint_nil (i j : Nat) : lastPaint [] i j = none := rfl

@[simp] theorem lastPaint_cons (tile : FrameTile) (tiles : List FrameTile) (i j : Nat) :
    lastPaint (tile :: tiles) i j = (lastPaint tiles i j).or (tile.paints i j) := rfl

theorem lastPaint_append (tiles tiles' : List FrameTile) (i j : Nat) :
    lastPaint (tiles ++ tiles') i j = (lastPaint tiles' i j).or (lastPaint tiles i j) := by
  induction tiles with
  | nil => simp
  | cons tile tiles ih => rw [List.cons_append, lastPaint_cons, ih, lastPaint_cons, Option.or_assoc]

/-- Tiles that all leave a pixel as it is or give it one colour. -/
theorem lastPaint_cases {tiles : List FrameTile} {i j : Nat} {c : UInt32}
    (h : ∀ tile ∈ tiles, tile.paints i j = none ∨ tile.paints i j = some c) :
    lastPaint tiles i j = none ∨ lastPaint tiles i j = some c := by
  induction tiles with
  | nil => exact .inl rfl
  | cons tile tiles ih =>
    rw [lastPaint_cons]
    obtain hrest | hrest := ih fun tile' htile' => h tile' (List.mem_cons_of_mem _ htile')
    · rw [hrest, Option.none_or]
      exact h tile List.mem_cons_self
    · rw [hrest, Option.some_or]
      exact .inr rfl

theorem lastPaint_eq_none {tiles : List FrameTile} {i j : Nat}
    (h : ∀ tile ∈ tiles, tile.paints i j = none) : lastPaint tiles i j = none := by
  induction tiles with
  | nil => rfl
  | cons tile tiles ih =>
    rw [lastPaint_cons, ih fun tile' htile' => h tile' (List.mem_cons_of_mem _ htile'),
      Option.none_or]
    exact h tile List.mem_cons_self

theorem lastPaint_of_mem {tiles : List FrameTile} {tile : FrameTile} {i j : Nat} {c : UInt32}
    (h : ∀ tile ∈ tiles, tile.paints i j = none ∨ tile.paints i j = some c) (hmem : tile ∈ tiles)
    (hc : tile.paints i j = some c) : lastPaint tiles i j = some c := by
  obtain ⟨before, after, rfl⟩ := List.append_of_mem hmem
  rw [lastPaint_append, lastPaint_cons, hc]
  have hafter := lastPaint_cases fun tile' htile' =>
    h tile' (List.mem_append_right _ (List.mem_cons_of_mem _ htile'))
  obtain hafter | hafter := hafter
  · simp [hafter]
  · simp [hafter]

end FrameTile

namespace FrameBuffer

theorem pixel_applyTile {f f' : FrameBuffer} {changed : Bool} {tile : FrameTile} (hfits : tile.Fits)
    (h : f.applyTile tile = .ok (f', changed)) (i j : Nat) :
    f'.pixel i j = (tile.paints i j).getD (f.pixel i j) := by
  obtain ⟨ht, hpicture⟩ := picture_of_applyTile hfits.right hfits.bottom h
  have hpixel : f'.pixel i j = (f.picture.overlay tile).pixel i j := by rw [← hpicture]; rfl
  rw [hpixel]
  simp only [Picture.overlay, FrameTile.paints, ht, true_and]
  split
  · rfl
  · rfl

/-- **A pixel shows what the last tile to paint it gave it.** -/
theorem pixel_applyTiles {tiles : List FrameTile} {f f' : FrameBuffer}
    (hfits : ∀ tile ∈ tiles, tile.Fits) (h : f.applyTiles tiles = .ok f') (i j : Nat) :
    f'.pixel i j = (FrameTile.lastPaint tiles i j).getD (f.pixel i j) := by
  induction tiles generalizing f with
  | nil =>
    cases h
    rfl
  | cons tile tiles ih =>
    obtain ⟨f₁, hf₁, h⟩ := bind_eq_ok.1 h
    have hrest := ih (fun tile' htile' => hfits tile' (List.mem_cons_of_mem _ htile')) h
    have hpixel : f₁.pixel i j = (tile.paints i j).getD (f.pixel i j) := by
      unfold applyOrDrop at hf₁
      split at hf₁
      · rename_i happly
        cases hf₁
        exact pixel_applyTile (hfits tile List.mem_cons_self) happly i j
      · rename_i happly
        cases hf₁
        simp [FrameTile.paints, not_accepted_of_rejected happly]
      · cases hf₁
    rw [hrest, hpixel, FrameTile.lastPaint_cons]
    cases FrameTile.lastPaint tiles i j <;> rfl

end FrameBuffer
end VBox
