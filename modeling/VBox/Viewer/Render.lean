import VBox.Viewer.Letterbox
import VBox.Viewer.Overlay

/-!
# Viewer.Render

How a frame gets on the host window (`copy_frame_region_preserve_aspect` in
`crates/client/src/viewer/frame.rs`, `compute_effective_content_rect` in `geometry.rs`): a rectangle
of it is scaled into the letterbox, and the rest of the window is matte.

* `copyFrameRegionPreserveAspect_spec`: a region inside the frame is copied, pixel by pixel.
* `Reachable.inside`: over every run the content rectangle stays inside the frame.
* `reachable_renderable`: so every buffer can be rendered at any time.
-/

namespace VBox

open Raster Scaling ByteCodec

/-! ## Pixels -/

def opaqueSoftbufferPixel (pixel : UInt32) : UInt32 := 0xff000000 ||| (pixel &&& 0x00ffffff)

def pixelForSoftbuffer (pixel matte : UInt32) : UInt32 :=
  let a := (pixelAlpha pixel).toUInt32
  if 255 ≤ a then opaqueSoftbufferPixel pixel
  else if a < visibleAlphaThreshold.toUInt32 then opaqueSoftbufferPixel matte
  else
    let matteR := (matte >>> 16) &&& 0xff
    let matteG := (matte >>> 8) &&& 0xff
    let matteB := matte &&& 0xff
    let r := ((pixelR pixel).toUInt32 * a + matteR * (255 - a)) / 255
    let g := ((pixelG pixel).toUInt32 * a + matteG * (255 - a)) / 255
    let b := ((pixelB pixel).toUInt32 * a + matteB * (255 - a)) / 255
    opaqueSoftbufferPixel (rgbToPixel r g b)

/-! ## The copy -/

/-- The body of the inner loop of `copy_scaled_frame_region_into_rect`. -/
def copyPixel (src : List UInt32) (region : FrameRect) (matte : UInt32) (render : RenderRect)
    (srcRow dstRow : Nat) (dst : List UInt32) (x : Nat) : Except Fault (List UInt32) := do
  let srcX := region.x + x * region.w / render.w
  let pixel ← index src (srcRow + srcX)
  if dstRow + x < dst.length then
    return dst.set (dstRow + x) (pixelForSoftbuffer pixel matte)
  else throw .outOfBounds

/-- The body of the outer loop. -/
def copyRow (src : List UInt32) (srcWidth : Nat) (region : FrameRect) (matte : UInt32)
    (dstWidth : Nat) (render : RenderRect) (dst : List UInt32) (y : Nat) :
    Except Fault (List UInt32) :=
  let srcY := region.y + y * region.h / render.h
  let srcRow := srcY * srcWidth
  let dstRow := (render.y + y) * dstWidth + render.x
  (List.range render.w).foldlM (copyPixel src region matte render srcRow dstRow) dst

def copyScaledFrameRegionIntoRect (src : List UInt32) (srcWidth : Nat) (region : FrameRect)
    (matte : UInt32) (dst : List UInt32) (dstWidth : Nat) (render : RenderRect) :
    Except Fault (List UInt32) :=
  (List.range render.h).foldlM (copyRow src srcWidth region matte dstWidth render) dst

def copyFrameRegionPreserveAspect (src : List UInt32) (srcWidth : Nat) (region : FrameRect)
    (matte : UInt32) (dst : List UInt32) (dstWidth dstHeight : Nat) :
    Except Fault (List UInt32) := do
  let dst := dst.map fun _ => opaqueSoftbufferPixel matte
  let render ← aspectFitRect region.w region.h (asU32 dstWidth) (asU32 dstHeight)
  copyScaledFrameRegionIntoRect src srcWidth region matte dst dstWidth render

/-- The rectangle of the frame that is rendered. -/
def computeEffectiveContentRect (usesOwnChrome : Bool) (frameW frameH : Nat) (content : FrameRect) :
    FrameRect :=
  if usesOwnChrome then .new 0 0 (max frameW 1) (max frameH 1) else content

/-! ### What is copied -/

/-- The index that a pixel of the letterbox is copied from. -/
def sampleIndex (srcWidth : Nat) (region : FrameRect) (render : RenderRect) (x y : Nat) : Nat :=
  (region.y + y * region.h / render.h) * srcWidth + (region.x + x * region.w / render.w)

section Copy

variable {src : List UInt32} {srcWidth srcHeight dstWidth dstHeight : Nat} {region : FrameRect}
  {render : RenderRect} {matte : UInt32} {dst : List UInt32}

/-- The pixel of the frame that a pixel of the letterbox shows. -/
def sample (src : List UInt32) (srcWidth : Nat) (region : FrameRect) (render : RenderRect)
    (x y : Nat) : UInt32 :=
  src.getD (sampleIndex srcWidth region render x y) transparentPixel

theorem sampleIndex_lt (hregion : region.Inside srcWidth srcHeight) {x y : Nat} (hx : x < render.w)
    (hy : y < render.h) : sampleIndex srcWidth region render x y < srcWidth * srcHeight := by
  obtain ⟨hw, hh, hright, hbottom⟩ := hregion
  have hsx := scale_lt hx hw
  have hsy := scale_lt hy hh
  exact index_lt (by omega) (by omega)

theorem copyScaledFrameRegionIntoRect_eq (hsrc : src.length = srcWidth * srcHeight)
    (hregion : region.Inside srcWidth srcHeight) (hdst : dst.length = dstWidth * dstHeight)
    (hright : render.x + render.w ≤ dstWidth) (hbottom : render.y + render.h ≤ dstHeight) :
    copyScaledFrameRegionIntoRect src srcWidth region matte dst dstWidth render =
      .ok (paint dstWidth render.x render.y render.w render.h
        (fun y x => some (pixelForSoftbuffer (sample src srcWidth region render x y) matte)) dst) := by
  refine (foldlM_ok (f := copyRow src srcWidth region matte dstWidth render)
    (I := (·.length = dstWidth * dstHeight)) (l := List.range render.h)
    (fun y hy dst hdst => ⟨?_, by simpa using hdst⟩) hdst).1
  rw [List.mem_range] at hy
  have hrow := mul_add_le hright (show render.y + y < dstHeight by omega)
  refine (foldlM_ok (f := copyPixel src region matte render _ _)
    (I := (·.length = dstWidth * dstHeight)) (l := List.range render.w)
    (fun x hx dst hdst => ⟨?_, by simpa using hdst⟩) hdst).1
  rw [List.mem_range] at hx
  have hlt := sampleIndex_lt hregion hx hy
  have hread : index src (sampleIndex srcWidth region render x y) =
      .ok (sample src srcWidth region render x y) := by
    rw [sample, List.getD_eq_getElem?_getD, List.getElem?_eq_getElem (by omega)]
    exact index_ok (List.getElem?_eq_getElem (by omega))
  rw [sampleIndex] at hread
  simp only [copyPixel, hread, bind, Except.bind]
  rw [if_pos (by omega)]
  rfl

theorem aspectFitRect_max (srcWidth srcHeight dstWidth dstHeight : Nat) :
    aspectFitRect srcWidth srcHeight dstWidth dstHeight =
      aspectFitRect srcWidth srcHeight (max dstWidth 1) (max dstHeight 1) := by
  simp only [aspectFitRect, Nat.max_assoc, Nat.max_self]

theorem max_asU32_le {n : Nat} (h : 0 < n) : max (asU32 n) 1 ≤ n := by
  have := Nat.mod_le n (2 ^ 32)
  rw [asU32]
  omega

theorem max_asU32_lt (n : Nat) : max (asU32 n) 1 < 2 ^ 32 := by
  have := Nat.mod_lt n (show 0 < 2 ^ 32 by decide)
  rw [asU32]
  omega

/-- A region inside the frame is copied, and every pixel of the letterbox shows one of it. -/
theorem copyFrameRegionPreserveAspect_spec (matte : UInt32) (hsrc : src.length = srcWidth * srcHeight)
    (hregion : region.Inside srcWidth srcHeight) (hw : srcWidth < 2 ^ 32) (hh : srcHeight < 2 ^ 32)
    (hdst : dst.length = dstWidth * dstHeight) (hdw : 0 < dstWidth) (hdh : 0 < dstHeight) :
    ∃ render out, aspectFitRect region.w region.h (asU32 dstWidth) (asU32 dstHeight) = .ok render ∧
      copyFrameRegionPreserveAspect src srcWidth region matte dst dstWidth dstHeight = .ok out ∧
      out.length = dstWidth * dstHeight ∧
      ∀ x y, x < render.w → y < render.h →
        out[(render.y + y) * dstWidth + (render.x + x)]? =
          some (pixelForSoftbuffer (sample src srcWidth region render x y) matte) := by
  have hright := hregion.right_le
  have hbottom := hregion.bottom_le
  obtain ⟨render, hrender, hrw, hrh, hrx, hry⟩ := aspectFitRect_inside
    (show region.w < 2 ^ 32 by omega) (show region.h < 2 ^ 32 by omega)
    (Nat.le_max_right (asU32 dstWidth) 1) (max_asU32_lt dstWidth)
    (Nat.le_max_right (asU32 dstHeight) 1) (max_asU32_lt dstHeight)
  rw [← aspectFitRect_max] at hrender
  have hrx' := hrx.trans (max_asU32_le hdw)
  have hry' := hry.trans (max_asU32_le hdh)
  have hfill : (dst.map fun _ => opaqueSoftbufferPixel matte).length = dstWidth * dstHeight := by
    rw [List.length_map, hdst]
  have hcopy : ∀ out, copyScaledFrameRegionIntoRect src srcWidth region matte
      (dst.map fun _ => opaqueSoftbufferPixel matte) dstWidth render = .ok out →
      copyFrameRegionPreserveAspect src srcWidth region matte dst dstWidth dstHeight = .ok out := by
    intro out hout
    simp only [copyFrameRegionPreserveAspect, hrender, bind, Except.bind]
    exact hout
  refine ⟨render, _, hrender, hcopy _ (copyScaledFrameRegionIntoRect_eq hsrc hregion hfill hrx' hry'),
    by rw [paint_length, hfill], fun x y hx hy => ?_⟩
  have hold : (dst.map fun _ => opaqueSoftbufferPixel matte)[(render.y + y) * dstWidth +
      (render.x + x)]? = some (opaqueSoftbufferPixel matte) := by
    have hlt := index_lt (show render.x + x < dstWidth by omega)
      (show render.y + y < dstHeight by omega)
    rw [List.getElem?_map, List.getElem?_eq_getElem (by omega)]
    rfl
  rw [getElem?_paint (by omega) hrx', hold, Option.map_some, if_pos (by omega)]
  simp only [Nat.add_sub_cancel_left, Option.getD_some]

end Copy

/-! ## Runs -/

namespace FrameBuffer

/-- What is done to a frame buffer after `new`. -/
inductive Op where
  | resize (width height : Nat)
  | resizeForRemoteSize (width height : Nat)
  | applyTile (tile : FrameTile)

def step (f : FrameBuffer) : Op → Except Fault FrameBuffer
  | .resize width height => f.resize width height
  | .resizeForRemoteSize width height => f.resizeForRemoteSize width height
  | .applyTile tile => (f.applyTileInPlace tile).map (·.1)

/-- A size of at least one pixel whose area is a `u32`. -/
def FitsArea (width height : Nat) : Prop := 0 < width ∧ 0 < height ∧ width * height < 2 ^ 32

/-- The size that an operation gives the buffer has an area. -/
def Allowed (f : FrameBuffer) : Op → Prop
  | .resize width height | .resizeForRemoteSize width height => FitsArea width height
  | .applyTile tile => FitsArea (f.newWidth tile) (f.newHeight tile)

/-- The states of all runs. -/
inductive Reachable : FrameBuffer → Prop
  | new {f : FrameBuffer} {width height : Nat} (h : FitsArea width height)
      (hnew : new width height = .ok f) : Reachable f
  | step {f f' : FrameBuffer} {op : Op} (hf : Reachable f) (hop : f.Allowed op)
      (hstep : f.step op = .ok f') : Reachable f'

/-- The size has an area, and the content rectangle lies inside. -/
structure Good (f : FrameBuffer) : Prop where
  area : FitsArea f.width f.height
  content : f.content.Inside f.width f.height

theorem FitsArea.lt {width height : Nat} (h : FitsArea width height) :
    width < 2 ^ 32 ∧ height < 2 ^ 32 := by
  obtain ⟨hw, hh, harea⟩ := h
  exact ⟨(Nat.le_mul_of_pos_right _ hh).trans_lt harea, (Nat.le_mul_of_pos_left _ hw).trans_lt harea⟩

theorem inside_whole {width height : Nat} (h : FitsArea width height) :
    (FrameRect.new 0 0 (max width 1) (max height 1)).Inside width height := by
  obtain ⟨hw, hh, -⟩ := h
  constructor <;> simp only [FrameRect.new] <;> omega

/-- A buffer of the new size whose content is all of it. -/
theorem good_replaced {f replaced f' : FrameBuffer} {width height : Nat} (h : FitsArea width height)
    (hreplaced : f.replaceBufferPreservingPixels width height = .ok replaced ∨
      f.replaceBufferClearing width height = .ok replaced)
    (hf' : f' = { replaced with content := .new 0 0 (max width 1) (max height 1) }) : f'.Good := by
  subst hf'
  obtain hpreserved | hcleared := hreplaced
  · obtain ⟨hfit, rfl⟩ := replaceBufferPreservingPixels_eq_ok hpreserved
    exact ⟨h, inside_whole h⟩
  · obtain ⟨hfit, rfl⟩ := replaceBufferClearing_eq_ok hcleared
    exact ⟨h, inside_whole h⟩

theorem good_resize {f f' : FrameBuffer} (hf : f.width = 0 ∨ f.Good) {width height : Nat}
    (h : FitsArea width height) (hok : f.resize width height = .ok f') : f'.Good := by
  have hw := h.1
  unfold resize at hok
  split at hok
  · cases hok
    exact hf.resolve_left (by omega)
  · obtain ⟨replaced, hreplaced, hok⟩ := bind_eq_ok.1 hok
    exact good_replaced h (.inl hreplaced) (Except.ok.inj hok).symm

theorem good_resizeForRemoteSize {f f' : FrameBuffer} (hf : f.Good) {width height : Nat}
    (h : FitsArea width height) (hok : f.resizeForRemoteSize width height = .ok f') : f'.Good := by
  unfold resizeForRemoteSize at hok
  split at hok
  · cases hok
    exact hf
  · obtain ⟨replaced, hreplaced, hok⟩ := bind_eq_ok.1 hok
    split at hreplaced
    · exact good_replaced h (.inr hreplaced) (Except.ok.inj hok).symm
    · exact good_replaced h (.inl hreplaced) (Except.ok.inj hok).symm

theorem good_new {f : FrameBuffer} {width height : Nat} (h : FitsArea width height)
    (hok : new width height = .ok f) : f.Good :=
  good_resize (.inl rfl) h hok

/-- The content rectangle is recomputed inside the frame, wherever it was before. -/
theorem good_updateContentRect {f f' : FrameBuffer} (h : FitsArea f.width f.height)
    (hf' : f.updateContentRect = .ok f') : f'.Good := by
  have hpicture := picture_updateContentRect hf'
  have hwidth : f'.width = f.width := congrArg Picture.width hpicture
  have hheight : f'.height = f.height := congrArg Picture.height hpicture
  suffices hcontent : f'.content.Inside f.width f.height by
    refine ⟨?_, ?_⟩
    · rw [hwidth, hheight]
      exact h
    · rw [hwidth, hheight]
      exact hcontent
  rcases Nat.eq_zero_or_pos f.scanContent.count with hcount | hcount
  · obtain ⟨g, hg, hcontent, -⟩ := updateContentRect_of_blank hcount
    cases hf'.symm.trans hg
    rw [hcontent]
    exact inside_whole h
  · obtain ⟨hw, hh⟩ := h.lt
    obtain ⟨rect, hrect, hinside⟩ :=
      trimUniformPadding_ok _ f.pixels_length h.2.2 hw hh (boundingRect_inside hcount)
    obtain ⟨g, hg, hcontent, -⟩ := (updateContentRect_of_count hcount).2 _ hrect
    cases hf'.symm.trans hg
    rw [hcontent]
    exact hinside

theorem good_applyTile {f f' : FrameBuffer} {tile : FrameTile} (hf : f.Good)
    (h : FitsArea (f.newWidth tile) (f.newHeight tile))
    (hstep : f.step (.applyTile tile) = .ok f') : f'.Good := by
  rw [step] at hstep
  cases hplace : f.applyTileInPlace tile with
  | error fault =>
    rw [hplace] at hstep
    cases hstep
  | ok called =>
    obtain ⟨f'', result⟩ := called
    rw [hplace] at hstep
    cases hstep
    cases applied hplace with
    | drawn _ hgrow hdraw hcontent =>
      obtain ⟨hdw, hdh⟩ := size_drawn hgrow hdraw
      rw [← hdw, ← hdh] at h
      exact good_updateContentRect h hcontent
    | refused _ hsame =>
      rw [hsame]
      exact hf

theorem Reachable.good {f : FrameBuffer} (h : f.Reachable) : f.Good := by
  induction h with
  | new h hnew => exact good_new h hnew
  | @step f f' op _ hop hstep ih =>
    cases op with
    | resize width height => exact good_resize (.inr ih) hop hstep
    | resizeForRemoteSize width height => exact good_resizeForRemoteSize ih hop hstep
    | applyTile tile => exact good_applyTile ih hop hstep

theorem effectiveContentRect_inside {f : FrameBuffer} (h : f.Good) (usesOwnChrome : Bool) :
    (computeEffectiveContentRect usesOwnChrome f.width f.height f.content).Inside f.width
      f.height := by
  unfold computeEffectiveContentRect
  split
  · exact inside_whole h.area
  · exact h.content

/-- Over every run the buffer has the pixels of its size, the content rectangle lies inside, and
either rectangle can be rendered to a window of any size. -/
theorem reachable_renderable {f : FrameBuffer} (h : f.Reachable) :
    f.pixels.length = f.width * f.height ∧ f.content.Inside f.width f.height ∧
      ∀ (usesOwnChrome : Bool) (matte : UInt32) (dst : List UInt32) (dstWidth dstHeight : Nat),
        0 < dstWidth → 0 < dstHeight → dst.length = dstWidth * dstHeight →
        ∃ out, copyFrameRegionPreserveAspect f.pixels f.width
            (computeEffectiveContentRect usesOwnChrome f.width f.height f.content) matte dst dstWidth
            dstHeight = .ok out ∧
          out.length = dstWidth * dstHeight := by
  have hgood := h.good
  obtain ⟨hw, hh⟩ := hgood.area.lt
  refine ⟨f.pixels_length, hgood.content, ?_⟩
  intro usesOwnChrome matte dst dstWidth dstHeight hdw hdh hdst
  obtain ⟨render, out, -, hcopy, hlen, -⟩ := copyFrameRegionPreserveAspect_spec matte
    f.pixels_length (effectiveContentRect_inside hgood usesOwnChrome) hw hh hdst hdw hdh
  exact ⟨out, hcopy, hlen⟩

theorem reachable_renderable_resized :
    ∃ f f', new 2 1 = .ok f ∧ f.resize 3 2 = .ok f' ∧ f'.content.Inside f'.width f'.height := by
  have hnew : FitsArea 2 1 := by
    unfold FitsArea
    decide
  have hop : ∀ f, Allowed f (.resize 3 2) := by
    intro f
    show FitsArea 3 2
    unfold FitsArea
    decide
  exact ⟨_, _, rfl, rfl, (reachable_renderable (.step (.new hnew rfl) (hop _) rfl)).2.1⟩

end FrameBuffer
end VBox
