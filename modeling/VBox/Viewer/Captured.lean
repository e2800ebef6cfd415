import VBox.Proto.Framing
import VBox.Session.Capture
import VBox.Viewer.Picture

/-!
# Viewer.Captured

From a shared memory buffer in the guest to the pixels of a frame in the viewer, and how large a
tile of a buffer may be.

* `copied_pixels_shown`: after its tile is applied a buffer's visible pixels stand in the frame,
  each at the offset of the surface, and the other pixels of the frame are the ones from before.
* `copied_tile_accepted_iff`: a tile of a buffer is written and drawn exactly when its frame is
  within the limit of the wire.
-/

namespace VBox

open ByteCodec Raster

/-! ## The colours of a tile -/

theorem rgbaToPixel_eq (r g b a : UInt8) :
    rgbaToPixel r.toUInt32 g.toUInt32 b.toUInt32 a.toUInt32 =
      UInt32.ofNat (a.toNat * 2 ^ 24 + r.toNat * 2 ^ 16 + g.toNat * 2 ^ 8 + b.toNat) := by
  have hr := r.toNat_lt
  have hg := g.toNat_lt
  have hb := b.toNat_lt
  have ha := a.toNat_lt
  have hmask (n : UInt8) : n.toUInt32 &&& 0xff = n.toUInt32 := by
    rw [← UInt32.toNat_inj, UInt32.toNat_and]
    have : (255 : UInt32).toNat = 2 ^ 8 - 1 := rfl
    rw [this, Nat.and_two_pow_sub_one_eq_mod]
    simp
  have hshift (n : UInt8) (k : UInt32) (hk : k.toNat ≤ 24) :
      (n.toUInt32 <<< k).toNat = n.toNat * 2 ^ k.toNat := by
    have hn := n.toNat_lt
    have hpow : 2 ^ k.toNat ≤ 2 ^ 24 := Nat.pow_le_pow_right (by omega) hk
    have : n.toNat * 2 ^ k.toNat ≤ 255 * 2 ^ 24 := Nat.mul_le_mul (by omega) hpow
    rw [UInt32.toNat_shiftLeft, UInt8.toNat_toUInt32, Nat.shiftLeft_eq,
      Nat.mod_eq_of_lt (show k.toNat < 32 by omega), Nat.mod_eq_of_lt (by omega)]
  -- the channels do not overlap, so they are added up
  have hor (m n k : Nat) (hn : n < 2 ^ k) : m * 2 ^ k ||| n = m * 2 ^ k + n := by
    rw [← Nat.shiftLeft_eq, Nat.shiftLeft_add_eq_or_of_lt hn]
  rw [rgbaToPixel, hmask, hmask, hmask, hmask, ← UInt32.toNat_inj, UInt32.toNat_ofNat_of_lt' (by
    show _ < 2 ^ 32
    omega)]
  simp only [UInt32.toNat_or]
  rw [hshift a 24 (by decide), hshift r 16 (by decide), hshift g 8 (by decide),
    UInt8.toNat_toUInt32]
  show a.toNat * 2 ^ 24 ||| r.toNat * 2 ^ 16 ||| g.toNat * 2 ^ 8 ||| b.toNat = _
  rw [hor a.toNat (r.toNat * 2 ^ 16) 24 (by omega)]
  rw [show a.toNat * 2 ^ 24 + r.toNat * 2 ^ 16 = (a.toNat * 2 ^ 8 + r.toNat) * 2 ^ 16 by omega,
    hor _ _ 16 (by omega)]
  rw [show (a.toNat * 2 ^ 8 + r.toNat) * 2 ^ 16 + g.toNat * 2 ^ 8 =
    ((a.toNat * 2 ^ 8 + r.toNat) * 2 ^ 8 + g.toNat) * 2 ^ 8 by omega, hor _ _ 8 (by omega)]

/-- What a copied rectangle shows at a row and a column: the pixel of the buffer, if it can be
seen. -/
theorem visible_tile {b : ShmBuffer} (hb : b.Valid) {id : UInt64} {rect : CopyRect} {bytes : Bytes}
    (hright : rect.skipX.toNat + rect.width.toNat ≤ b.width.toInt.toNat)
    (hbottom : rect.skipY.toNat + rect.height.toNat ≤ b.height.toInt.toNat)
    (hstride : rect.width.toNat * 4 < 2 ^ 32) (h : b.readRows rect = .ok bytes) {row col : Nat}
    (hrow : row < rect.height.toNat) (hcol : col < rect.width.toNat) :
    (rect.tile id bytes).visible row col =
      if b.alpha (rect.skipX.toNat + col) (rect.skipY.toNat + row) < visibleAlphaThreshold then none
      else some (b.argb (rect.skipX.toNat + col) (rect.skipY.toNat + row)) := by
  have hread := fun k hk => hb.getElem?_readRows hright hbottom h hrow hcol (k := k) hk
  have hwidth : (rect.width * 4).toNat = rect.width.toNat * 4 := by
    rw [UInt32.toNat_mul]
    exact Nat.mod_eq_of_lt hstride
  have h0 := hread 0 (by omega)
  have h1 := hread 1 (by omega)
  have h2 := hread 2 (by omega)
  have h3 := hread 3 (by omega)
  simp only [FrameTile.visible, CopyRect.tile, hwidth, List.getD_eq_getElem?_getD, h0, h1, h2, h3]
  simp only [ShmBuffer.rgba, List.getElem?_cons_zero, List.getElem?_cons_succ, Option.getD_some,
    rgbaToPixel_eq, ShmBuffer.argb]

/-- A pixel of a buffer that can be seen, and its place in the window of its surface. -/
structure ShmBuffer.Shows (b : ShmBuffer) (x y : Int32) (bounds : Option SurfaceBounds)
    (sx sy i j : Nat) : Prop where
  lands : Lands (nonnegative b.width) (nonnegative b.height) x y bounds sx sy i j
  alpha : visibleAlphaThreshold ≤ b.alpha sx sy

section Paints

variable {b : ShmBuffer} {id : UInt64} {x y : Int32} {bounds : Option SurfaceBounds} {rect : CopyRect}
  {bytes : Bytes}
  (hb : b.Valid)
  (hrect : surfaceCopyRectWithBounds (nonnegative b.width) (nonnegative b.height) x y bounds =
    some rect)
  (hstride : rect.width.toNat * 4 < 2 ^ 32) (h : b.readRows rect = .ok bytes)
  (haccepted : (rect.tile id bytes).Accepted)

include hb hrect hstride h haccepted

/-- What a tile of a buffer paints where one of the buffer's pixels belongs. -/
theorem paints_of_lands {sx sy i j : Nat}
    (hlands : Lands (nonnegative b.width) (nonnegative b.height) x y bounds sx sy i j) :
    (rect.tile id bytes).paints i j =
      if b.alpha sx sy < visibleAlphaThreshold then none else some (b.argb sx sy) := by
  have hwithin := surfaceCopyRect_within hrect
  have hright := hwithin.right
  have hbottom := hwithin.bottom
  rw [toNat_nonnegative] at hright hbottom
  obtain ⟨⟨hleft, hcol, rfl⟩, htop, hrow, rfl⟩ := (lands_iff hrect).1 hlands
  rw [FrameTile.paints, if_pos ⟨haccepted, htop, hrow, hleft, hcol⟩]
  have hj : j - rect.dstY.toNat < rect.height.toNat := by omega
  have hi : i - rect.dstX.toNat < rect.width.toNat := by omega
  exact visible_tile hb hright hbottom hstride h hj hi

theorem paints_of_shows {sx sy i j : Nat} (hshows : b.Shows x y bounds sx sy i j) :
    (rect.tile id bytes).paints i j = some (b.argb sx sy) := by
  rw [paints_of_lands hb hrect hstride h haccepted hshows.lands,
    if_neg (UInt8.not_lt.2 hshows.alpha)]

theorem paints_of_not_shows {i j : Nat} (hshows : ∀ sx sy, ¬ b.Shows x y bounds sx sy i j) :
    (rect.tile id bytes).paints i j = none := by
  cases hpaints : (rect.tile id bytes).paints i j with
  | none => rfl
  | some c =>
    exfalso
    have hin := hpaints
    rw [FrameTile.paints] at hin
    split at hin
    · rename_i hplace
      obtain ⟨-, htop, hbottom, hleft, hright⟩ := hplace
      have hlands := (lands_iff hrect).2 ⟨⟨hleft, hright, rfl⟩, htop, hbottom, rfl⟩
      rw [paints_of_lands hb hrect hstride h haccepted hlands] at hpaints
      split at hpaints
      · cases hpaints
      · rename_i halpha
        exact hshows _ _ ⟨hlands, UInt8.not_lt.1 halpha⟩
    · cases hin

end Paints

/-- A tile of a buffer passes the checks of the viewer, unless its size does not fit a `u32`. -/
theorem copied_tile_accepted {b : ShmBuffer} (id : UInt64) {rect : CopyRect} {bytes : Bytes}
    (hstride : rect.width.toNat * 4 < 2 ^ 32) (h : b.readRows rect = .ok bytes)
    (hlen : bytes.length < 2 ^ 32) : (rect.tile id bytes).Accepted := by
  have hbytes := ShmBuffer.readRows_length h
  have hwidth : (rect.width * 4).toNat = rect.width.toNat * 4 := by
    rw [UInt32.toNat_mul]
    exact Nat.mod_eq_of_lt hstride
  refine ⟨rfl, ?_, ?_, ?_⟩
  · show _ ≤ (rect.width * 4).toNat
    rw [hwidth]
    rfl
  · show (rect.width * 4).toNat * rect.height.toNat < _
    rw [hwidth]
    omega
  · show (rect.width * 4).toNat * rect.height.toNat ≤ bytes.length
    rw [hwidth, hbytes]

/-- **The way of a pixel.** A valid buffer is copied. Where no pixel of it has a place in the window
there is no tile; otherwise applying the tile to any frame shows every visible pixel of the buffer
at the offset of the surface, and changes nothing else. -/
theorem copied_pixels_shown {b : ShmBuffer} (hb : b.Valid) (id : UInt64) (x y : Int32)
    (bounds : Option SurfaceBounds) :
    (copyShmBufferWithBounds (some b) id x y bounds = .ok none ∧
      ∀ sx sy i j, ¬ Lands (nonnegative b.width) (nonnegative b.height) x y bounds sx sy i j) ∨
    ∃ tile, copyShmBufferWithBounds (some b) id x y bounds = .ok (some tile) ∧
      ∀ f : FrameBuffer, f.width < 2 ^ 32 → f.height < 2 ^ 32 → tile.Fits →
        tile.bytes.length < 2 ^ 32 →
        (f.picture.overlay tile).width * (f.picture.overlay tile).height < 2 ^ 32 →
        ∃ f' changed, f.applyTile tile = .ok (f', changed) ∧
          (∀ sx sy i j, b.Shows x y bounds sx sy i j →
            i < f'.width ∧ j < f'.height ∧ f'.pixel i j = b.argb sx sy) ∧
          ∀ i j, i < f.width → j < f.height → (∀ sx sy, ¬ b.Shows x y bounds sx sy i j) →
            i < f'.width ∧ j < f'.height ∧ f'.pixel i j = f.pixel i j := by
  cases hrect : surfaceCopyRectWithBounds (nonnegative b.width) (nonnegative b.height) x y bounds with
  | none =>
    refine .inl ⟨copyShmBuffer_of_none hb id hrect, fun sx sy i j => not_lands_of_none hrect⟩
  | some rect =>
    obtain ⟨bytes, hbytes, hcopy⟩ := copyShmBuffer_of_valid hb id hrect
    have hstride := copyStride_lt hb hrect
    refine .inr ⟨_, hcopy, fun f hw hh hfits hlen harea => ?_⟩
    have haccepted := copied_tile_accepted id hstride hbytes hlen
    obtain ⟨f', changed, happly, hpicture⟩ :=
      f.picture_applyTile haccepted hfits.right hfits.bottom hw hh harea
    have hwidth : f'.width = max (max f.width (rect.dstX.toNat + rect.width.toNat)) 1 :=
      congrArg Picture.width hpicture
    have hheight : f'.height = max (max f.height (rect.dstY.toNat + rect.height.toNat)) 1 :=
      congrArg Picture.height hpicture
    refine ⟨f', changed, happly, fun sx sy i j hshows => ?_, fun i j hi hj hshows => ?_⟩
    · obtain ⟨⟨-, hcol, -⟩, -, hrow, -⟩ := (lands_iff hrect).1 hshows.lands
      refine ⟨by omega, by omega, ?_⟩
      rw [FrameBuffer.pixel_applyTile hfits happly,
        paints_of_shows hb hrect hstride hbytes haccepted hshows]
      rfl
    · refine ⟨by omega, by omega, ?_⟩
      rw [FrameBuffer.pixel_applyTile hfits happly,
        paints_of_not_shows hb hrect hstride hbytes haccepted hshows]
      rfl

/-- Two rows of two pixels of which one is transparent. The rows are longer than their pixels. -/
def patch : ShmBuffer :=
  { offset := 4, width := 2, height := 2, stride := 12, format := .argb8888
    memory := [0, 0, 0, 0, 1, 2, 3, 255, 4, 5, 6, 255, 0, 0, 0, 0, 7, 8, 9, 20, 10, 11, 12, 200,
      0, 0, 0, 0] }

theorem patch_valid : patch.Valid := by
  refine ⟨by decide, by decide, by decide, by decide, by decide, fun code => ?_⟩
  simp [patch]

/-- The right column of the patch. -/
def patchTile : FrameTile :=
  { id := 1, x := 0, y := 0, w := 1, h := 2, stride := 4, encoding := .rawRgba
    bytes := [6, 5, 4, 255, 12, 11, 10, 200] }

/-- The patch one column to the left of the window: its lower right pixel is shown at the left
edge. -/
theorem copied_pixels_shown_patch :
    copyShmBufferWithBounds (some patch) 1 (-1) 0 none = .ok (some patchTile) ∧
      ∃ f f' changed, FrameBuffer.new 3 3 = .ok f ∧ f.applyTile patchTile = .ok (f', changed) ∧
        f'.pixel 0 1 = 0xc80c0b0a ∧ f'.pixel 2 2 = transparentPixel := by
  have hcopy : copyShmBufferWithBounds (some patch) 1 (-1) 0 none = .ok (some patchTile) := by decide
  refine ⟨hcopy, ?_⟩
  obtain ⟨hnone, -⟩ | ⟨tile, htile, hshown⟩ := copied_pixels_shown patch_valid 1 (-1) 0 none
  · rw [hcopy] at hnone
    cases hnone
  · rw [hcopy] at htile
    cases htile
    obtain ⟨f, hf⟩ : ∃ f, FrameBuffer.new 3 3 = .ok f := FrameBuffer.new_ok (by decide)
    have hpicture := FrameBuffer.picture_new hf
    have hw : f.width = 3 := congrArg Picture.width hpicture
    have hh : f.height = 3 := congrArg Picture.height hpicture
    obtain ⟨f', changed, happly, hshows, hkeeps⟩ := hshown f (by omega) (by omega)
      ⟨by decide, by decide⟩ (by decide) (by rw [hpicture]; decide)
    have hplace : Lands (nonnegative patch.width) (nonnegative patch.height) (-1) 0 none 1 1 0 1 :=
      ⟨by decide, by decide, by decide, by decide, fun b hb => by cases hb⟩
    have hempty : f.pixel 2 2 = transparentPixel :=
      congrFun (congrFun (congrArg Picture.pixel hpicture) 2) 2
    refine ⟨f, f', changed, hf, happly, (hshows 1 1 0 1 ⟨hplace, by decide⟩).2.2, ?_⟩
    rw [← hempty]
    refine (hkeeps 2 2 (by omega) (by omega) ?_).2.2
    rintro sx sy ⟨⟨hcol, -, hleft, -, -⟩, -⟩
    have hwidth : (nonnegative patch.width).toNat = 2 := by decide
    have hoffset : (-1 : Int32).toInt = -1 := by decide
    omega

/-! ## The size of a tile -/

/-- How long the frame of a tile is: its kind, the variants of the message and of the encoding, the
numbers, and the pixels after their length. -/
def tileFrameLength (id : UInt64) (x y w h : UInt32) : Nat :=
  let pixels := 4 * w.toNat * h.toNat
  6 + varintLength id.toNat + varintLength x.toNat + varintLength y.toNat + varintLength w.toNat +
    varintLength h.toNat + varintLength (4 * w.toNat) + varintLength pixels + pixels

/-- **What the wire and the viewer take.** A tile of a buffer is written to a connection and passes
the checks of the viewer exactly when its frame has at most 64 MiB. -/
theorem copied_tile_accepted_iff {buffer : Option ShmBuffer} {id : UInt64} {x y : Int32}
    {bounds : Option SurfaceBounds} {tile : FrameTile}
    (h : copyShmBufferWithBounds buffer id x y bounds = .ok (some tile)) :
    ((∃ frame, encodeFrame messageWire (.frameTile tile) = .ok frame) ∧
      ∀ (f : FrameBuffer) (message : String), f.applyTile tile ≠ .error (.rejected message)) ↔
    tileFrameLength tile.id tile.x tile.y tile.w tile.h ≤ 64 * 1024 * 1024 := by
  obtain ⟨b, rect, bytes, -, -, hbytes, hstride, rfl⟩ := copyShmBuffer_tile h
  have hlen : bytes.length = 4 * rect.width.toNat * rect.height.toNat := by
    rw [ShmBuffer.readRows_length hbytes, Nat.mul_comm rect.width.toNat]
  have hframe : (∃ e, encodeFrame messageWire (.frameTile (rect.tile id bytes)) = .error e) ↔ _ :=
    encodeFrame_error_iff
  have hlength := messageWire_frameTile_length_eq (rect.tile id bytes)
  have hmax : maxFrameBytes.toNat = 64 * 1024 * 1024 := rfl
  have hsum : (messageWire.toAllocvec (.frameTile (rect.tile id bytes))).length + 4 =
      tileFrameLength id rect.dstX rect.dstY rect.width rect.height := by
    have hwidth : (rect.width * 4).toNat = 4 * rect.width.toNat := by
      rw [UInt32.toNat_mul, Nat.mul_comm rect.width.toNat]
      exact Nat.mod_eq_of_lt (by rw [Nat.mul_comm]; exact hstride)
    rw [hlength]
    simp only [CopyRect.tile, hwidth, hlen, tileFrameLength]
    omega
  show _ ↔ tileFrameLength id rect.dstX rect.dstY rect.width rect.height ≤ _
  rw [hsum, hmax] at hframe
  constructor
  · rintro ⟨⟨frame, hok⟩, -⟩
    apply Nat.le_of_not_lt
    intro hlong
    obtain ⟨e, he⟩ := hframe.2 hlong
    rw [hok] at he
    cases he
  · intro hle
    refine ⟨?_, fun f message hrejected => ?_⟩
    · cases hencode : encodeFrame messageWire (.frameTile (rect.tile id bytes)) with
      | ok frame => exact ⟨frame, rfl⟩
      | error e => exact absurd (hframe.1 ⟨e, hencode⟩) (Nat.not_lt.2 hle)
    · refine FrameBuffer.not_accepted_of_rejected hrejected (copied_tile_accepted id hstride hbytes ?_)
      have : bytes.length ≤ tileFrameLength id rect.dstX rect.dstY rect.width rect.height := by
        rw [hlen]
        exact Nat.le_add_left _ _
      omega

theorem copied_tile_accepted_iff_patch :
    (∃ frame, encodeFrame messageWire (.frameTile patchTile) = .ok frame) ∧
      ∀ (f : FrameBuffer) (message : String), f.applyTile patchTile ≠ .error (.rejected message) := by
  have hcopy : copyShmBufferWithBounds (some patch) 1 (-1) 0 none = .ok (some patchTile) := by decide
  refine (copied_tile_accepted_iff hcopy).2 ?_
  decide

/-- A transparent square of 4096 by 4096 pixels. -/
def sheet : ShmBuffer :=
  { offset := 0, width := 4096, height := 4096, stride := 16384, format := .argb8888
    memory := List.replicate (64 * 1024 * 1024) 0 }

/-- The pixels of the sheet alone fill the largest frame, so no frame holds its tile. -/
theorem sheet_tile_refused :
    ∃ tile, copyShmBufferWithBounds (some sheet) 1 0 0 none = .ok (some tile) ∧
      ∃ e, encodeFrame messageWire (.frameTile tile) = .error e := by
  have hvalid : sheet.Valid := by
    refine ⟨by decide, by decide, by decide, by decide, ?_, fun code => ?_⟩
    · show 0 + 16384 * 4096 ≤ (List.replicate (64 * 1024 * 1024) (0 : UInt8)).length
      rw [List.length_replicate]
    · intro hother
      cases hother
  have hrect : surfaceCopyRectWithBounds (nonnegative sheet.width) (nonnegative sheet.height) 0 0
      none = some { skipX := 0, skipY := 0, dstX := 0, dstY := 0, width := 4096, height := 4096 } := by
    show surfaceCopyRectWithBounds 4096 4096 0 0 none = _
    decide
  obtain ⟨bytes, hbytes, hcopy⟩ := copyShmBuffer_of_valid hvalid 1 hrect
  refine ⟨_, hcopy, encodeFrame_error_iff.2 ?_⟩
  have hlen : bytes.length = 4096 * 4 * 4096 := ShmBuffer.readRows_length hbytes
  rw [messageWire_frameTile_length_eq]
  show 64 * 1024 * 1024 < _ + bytes.length + 4
  omega

end VBox
