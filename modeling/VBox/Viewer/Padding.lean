import VBox.Viewer.Frame

/-!
# Viewer.Padding

What `trim_uniform_padding` takes off a rectangle (`crates/client/src/viewer/frame.rs`). Four loops
move the bottom, the top, the right and the left side inwards as long as the line there is uniform;
a side that moved less than `UNIFORM_PADDING_MIN_RUN` goes back.

* `trimStartLoop_fuel`: the loops end by themselves.
* `trimUniformPadding_spec`: what was taken off is uniform, and a rectangle is left.
* `trimUniformPadding_fault`: the rows of a large buffer have no `u32` index.
-/

namespace VBox

open Raster

/-! ## The loops -/

/-- More turns than there are lines change nothing. -/
theorem trimStartLoop_fuel {uniform : Nat → Except Fault Bool} {hi : Nat} (fuel fuel' : Nat)
    {lo : Nat} (h : hi ≤ lo + fuel) (h' : hi ≤ lo + fuel') :
    trimStartLoop uniform hi fuel lo = trimStartLoop uniform hi fuel' lo := by
  induction fuel generalizing fuel' lo with
  | zero =>
    cases fuel' with
    | zero => rfl
    | succ fuel' => rw [trimStartLoop, trimStartLoop, if_neg (by omega)]
  | succ fuel ih =>
    cases fuel' with
    | zero => rw [trimStartLoop, trimStartLoop, if_neg (by omega)]
    | succ fuel' =>
      rw [trimStartLoop, trimStartLoop]
      split
      · rw [ih fuel' (by omega) (by omega)]
      · rfl

theorem trimEndLoop_uniform {uniform : Nat → Except Fault Bool} {lo hi hi' : Nat}
    (h : trimEndLoop uniform lo hi = .ok hi') :
    ∀ i, hi' ≤ i → i < hi → uniform i = .ok true := by
  induction hi with
  | zero => intro i _ hlt; omega
  | succ hi ih =>
    rw [trimEndLoop] at h
    split at h
    · split at h
      · cases h
      · cases h
        intro i _ _
        omega
      · rename_i huniform
        intro i hle hlt
        obtain rfl | hne := eq_or_ne i hi
        · exact huniform
        · exact ih h i hle (by omega)
    · cases h
      intro i _ _
      omega

theorem trimStartLoop_uniform {uniform : Nat → Except Fault Bool} {hi fuel lo lo' : Nat}
    (h : trimStartLoop uniform hi fuel lo = .ok lo') :
    ∀ i, lo ≤ i → i < lo' → uniform i = .ok true := by
  induction fuel generalizing lo with
  | zero =>
    cases h
    intro i _ _
    omega
  | succ fuel ih =>
    rw [trimStartLoop] at h
    split at h
    · split at h
      · cases h
      · cases h
        intro i _ _
        omega
      · rename_i huniform
        intro i hle hlt
        obtain rfl | hne := eq_or_ne i lo
        · exact huniform
        · exact ih h i (by omega) hlt
    · cases h
      intro i _ _
      omega

/-- A side that was at `a` is at `a'`, and the lines between are uniform. -/
structure Moved (uniform : Nat → Except Fault Bool) (a a' : Nat) : Prop where
  run : a' = a ∨ uniformPaddingMinRun ≤ a' - a
  uniform : ∀ i, a ≤ i → i < a' → uniform i = .ok true

theorem trimEnd_moved {uniform : Nat → Except Fault Bool} {lo hi hi' : Nat}
    (h : trimEnd uniform lo hi = .ok hi') : Moved uniform hi' hi := by
  rw [trimEnd] at h
  split at h
  · cases h
  rename_i stop hloop
  cases h
  split
  · exact ⟨.inl rfl, fun i hle hlt => by omega⟩
  · exact ⟨.inr (by omega), trimEndLoop_uniform hloop⟩

theorem trimStart_moved {uniform : Nat → Except Fault Bool} {lo hi lo' : Nat}
    (h : trimStart uniform lo hi = .ok lo') : Moved uniform lo lo' := by
  rw [trimStart] at h
  split at h
  · cases h
  rename_i stop hloop
  cases h
  split
  · exact ⟨.inl rfl, fun i hle hlt => by omega⟩
  · exact ⟨.inr (by omega), trimStartLoop_uniform hloop⟩

/-! ## The rectangle that is left -/

/-- `rect'` is what is left of `rect`: the rows that are gone are uniform from the left to the right
side of `rect`, the columns from the top to the bottom of `rect'`. -/
structure FrameRect.Trimmed (pixels : List UInt32) (stride : Nat) (rect rect' : FrameRect) :
    Prop where
  w_pos : 0 < rect'.w
  h_pos : 0 < rect'.h
  left_le : rect.x ≤ rect'.x
  right_le : rect'.x + rect'.w ≤ rect.x + rect.w
  top_le : rect.y ≤ rect'.y
  bottom_le : rect'.y + rect'.h ≤ rect.y + rect.h
  bottom : Moved (fun y => isUniformRow pixels stride y rect.x (rect.x + rect.w))
    (rect'.y + rect'.h) (rect.y + rect.h)
  top : Moved (fun y => isUniformRow pixels stride y rect.x (rect.x + rect.w)) rect.y rect'.y
  right : Moved (fun x => isUniformCol pixels stride x rect'.y (rect'.y + rect'.h))
    (rect'.x + rect'.w) (rect.x + rect.w)
  left : Moved (fun x => isUniformCol pixels stride x rect'.y (rect'.y + rect'.h)) rect.x rect'.x

/-- All pixels of `rect` can be read. -/
def FrameRect.Readable (pixels : List UInt32) (stride : Nat) (rect : FrameRect) : Prop :=
  ∀ x y, rect.x ≤ x → x < rect.x + rect.w → rect.y ≤ y → y < rect.y + rect.h →
    ∃ p, readPixel pixels stride x y = .ok p

theorem trimUniformPadding_spec {pixels : List UInt32} {stride : Nat} {rect : FrameRect}
    (hw : 0 < rect.w) (hh : 0 < rect.h) (hright : rect.x + rect.w < 2 ^ 32)
    (hbottom : rect.y + rect.h < 2 ^ 32) (hread : rect.Readable pixels stride) :
    ∃ rect', trimUniformPadding pixels stride rect = .ok rect' ∧
      rect.Trimmed pixels stride rect' := by
  have hrow : ∀ y, rect.y ≤ y → y < rect.y + rect.h →
      ∃ b, isUniformRow pixels stride y rect.x (rect.x + rect.w) = .ok b :=
    fun y hy hy' => isUniform_ok fun x hx hx' => hread x y hx hx' hy hy'
  obtain ⟨bottom, h1, hb1, hb2⟩ := trimEnd_ok rect.y (rect.y + rect.h) (by omega) hrow
  obtain ⟨top, h2, ht1, ht2⟩ := trimStart_ok rect.y bottom hb1
    fun y hy hy' => hrow y hy (by omega)
  have hcol : ∀ x, rect.x ≤ x → x < rect.x + rect.w →
      ∃ b, isUniformCol pixels stride x top bottom = .ok b :=
    fun x hx hx' => isUniform_ok fun y hy hy' => hread x y hx hx' (by omega) (by omega)
  obtain ⟨right, h3, hr1, hr2⟩ := trimEnd_ok rect.x (rect.x + rect.w) (by omega) hcol
  obtain ⟨left, h4, hl1, hl2⟩ := trimStart_ok rect.x right hr1
    fun x hx hx' => hcol x hx (by omega)
  refine ⟨⟨left, top, right - left, bottom - top⟩, ?_, ?_⟩
  · have hnew : FrameRect.new left top (right - left) (bottom - top) =
        ⟨left, top, right - left, bottom - top⟩ := by
      rw [FrameRect.new, Nat.max_eq_left (by omega), Nat.max_eq_left (by omega)]
    simp only [trimUniformPadding, bind_eq_ok]
    exact ⟨_, u32Fit_ok hbottom, _, u32Fit_ok hright, _, h1, _, h2, _, h3, _, h4,
      congrArg Except.ok hnew⟩
  · have hheight : top + (bottom - top) = bottom := by omega
    have hwidth : left + (right - left) = right := by omega
    constructor
    · show 0 < right - left
      omega
    · show 0 < bottom - top
      omega
    · exact hl1
    · show left + (right - left) ≤ _
      omega
    · exact ht1
    · show top + (bottom - top) ≤ _
      omega
    · rw [hheight]
      exact trimEnd_moved h1
    · exact trimStart_moved h2
    · rw [hheight, hwidth]
      exact trimEnd_moved h3
    · rw [hheight]
      exact trimStart_moved h4

/-- The pixels of a rectangle inside an array with fewer than `2 ^ 32` pixels can be read. -/
theorem FrameRect.readable {pixels : List UInt32} {stride : Nat} {rect : FrameRect}
    (hlast : (rect.y + rect.h - 1) * stride + (rect.x + rect.w) ≤ pixels.length)
    (hlen : pixels.length < 2 ^ 32) : rect.Readable pixels stride := by
  intro x y hx hx' hy hy'
  have hrow : y * stride ≤ (rect.y + rect.h - 1) * stride := Nat.mul_le_mul_right _ (by omega)
  rw [readPixel, u32Fit_ok (by omega)]
  exact ⟨_, index_ok (List.getElem?_eq_getElem (by omega))⟩

/-- In every rectangle inside an array the search for padding ends without a fault and leaves a
rectangle; a side moves by nothing or by a run of uniform lines that is long enough. -/
theorem trimUniformPadding_sound (pixels : List UInt32) (stride : Nat) (rect : FrameRect)
    (hw : 0 < rect.w) (hh : 0 < rect.h) (hright : rect.x + rect.w ≤ stride)
    (hlast : (rect.y + rect.h - 1) * stride + (rect.x + rect.w) ≤ pixels.length)
    (hlen : pixels.length < 2 ^ 32) :
    (∃ rect', trimUniformPadding pixels stride rect = .ok rect' ∧
      rect.Trimmed pixels stride rect') ∧
    ∀ uniform lo hi fuel, hi ≤ fuel →
      trimStartLoop uniform hi fuel lo = trimStartLoop uniform hi hi lo := by
  refine ⟨?_, fun uniform lo hi fuel hfuel => trimStartLoop_fuel _ _ (by omega) (by omega)⟩
  have hrows : rect.y + rect.h - 1 ≤ (rect.y + rect.h - 1) * stride :=
    Nat.le_mul_of_pos_right _ (by omega)
  exact trimUniformPadding_spec hw hh (by omega) (by omega) (FrameRect.readable hlast hlen)

theorem trimUniformPadding_sound_column :
    (∃ rect', trimUniformPadding (List.replicate 20 darkMattePixel) 1 ⟨0, 0, 1, 20⟩ = .ok rect' ∧
      FrameRect.Trimmed (List.replicate 20 darkMattePixel) 1 ⟨0, 0, 1, 20⟩ rect') ∧
    ∀ uniform lo hi fuel, hi ≤ fuel →
      trimStartLoop uniform hi fuel lo = trimStartLoop uniform hi hi lo :=
  trimUniformPadding_sound (List.replicate 20 darkMattePixel) 1 ⟨0, 0, 1, 20⟩ (by decide)
    (by decide) (by decide) (by decide) (by decide)

example : trimUniformPadding (List.replicate 20 darkMattePixel) 1 ⟨0, 0, 1, 20⟩ =
    .ok ⟨0, 0, 1, 1⟩ := by
  rfl

/-! ## Buffers that are too large -/

theorem readPixel_fault {pixels : List UInt32} {stride x y : Nat} (h : 2 ^ 32 ≤ y * stride) :
    readPixel pixels stride x y = .error .overflow := by
  rw [readPixel, u32Fit, if_neg (Nat.not_lt.mpr h)]

theorem isUniform_fault {read : Nat → Except Fault UInt32} {start stop : Nat} {e : Fault}
    (hlt : start < stop) (h : read start = .error e) : isUniform read start stop = .error e := by
  rw [isUniform, if_neg (by omega), h]

theorem trimEnd_fault {uniform : Nat → Except Fault Bool} {lo hi : Nat} {e : Fault}
    (hlt : lo + 1 < hi) (h : uniform (hi - 1) = .error e) : trimEnd uniform lo hi = .error e := by
  obtain ⟨last, rfl⟩ : ∃ last, hi = last + 1 := ⟨hi - 1, by omega⟩
  rw [Nat.add_sub_cancel] at h
  rw [trimEnd, trimEndLoop, if_pos hlt, h]

/-- Of one line nothing is taken off, and nothing is read. -/
theorem trimEnd_line (uniform : Nat → Except Fault Bool) (lo : Nat) :
    trimEnd uniform lo (lo + 1) = .ok (lo + 1) := by
  simp [trimEnd, trimEndLoop, uniformPaddingMinRun]

theorem trimStart_line (uniform : Nat → Except Fault Bool) (lo : Nat) :
    trimStart uniform lo (lo + 1) = .ok lo := by
  simp [trimStart, trimStartLoop, uniformPaddingMinRun]

theorem trimUniformPadding_single (pixels : List UInt32) (stride : Nat) {x y : Nat}
    (hx : x + 1 < 2 ^ 32) (hy : y + 1 < 2 ^ 32) :
    trimUniformPadding pixels stride ⟨x, y, 1, 1⟩ = .ok ⟨x, y, 1, 1⟩ := by
  simp only [trimUniformPadding, bind_eq_ok]
  refine ⟨_, u32Fit_ok hy, _, u32Fit_ok hx, _, trimEnd_line _ y, _, trimStart_line _ y, _,
    trimEnd_line _ x, _, trimStart_line _ x, ?_⟩
  simp [FrameRect.new, pure, Except.pure]

/-- The last row of a rectangle is looked at, unless it is a single pixel. -/
theorem trimUniformPadding_fault {pixels : List UInt32} {stride : Nat} {rect : FrameRect}
    (hw : 0 < rect.w) (hh : 0 < rect.h) (hright : rect.x + rect.w < 2 ^ 32)
    (hbottom : rect.y + rect.h < 2 ^ 32) (hmany : 1 < rect.w ∨ 1 < rect.h)
    (hlast : 2 ^ 32 ≤ (rect.y + rect.h - 1) * stride) :
    trimUniformPadding pixels stride rect = .error .overflow := by
  have hread : ∀ x, readPixel pixels stride x (rect.y + rect.h - 1) = .error .overflow :=
    fun x => readPixel_fault hlast
  by_cases hrows : 1 < rect.h
  · have hfault : trimEnd (fun y => isUniformRow pixels stride y rect.x (rect.x + rect.w)) rect.y
        (rect.y + rect.h) = .error .overflow :=
      trimEnd_fault (by omega) (isUniform_fault (by omega) (hread rect.x))
    simp only [trimUniformPadding, u32Fit_ok hbottom, u32Fit_ok hright, hfault, bind, Except.bind]
  · have hone : rect.h = 1 := by omega
    rw [hone, Nat.add_sub_cancel] at hread
    have hfault : trimEnd (fun x => isUniformCol pixels stride x rect.y (rect.y + 1)) rect.x
        (rect.x + rect.w) = .error .overflow :=
      trimEnd_fault (by omega) (isUniform_fault (by omega) (hread (rect.x + rect.w - 1)))
    rw [hone] at hbottom
    simp only [trimUniformPadding, hone, u32Fit_ok hbottom, u32Fit_ok hright,
      trimEnd_line _ rect.y, trimStart_line _ rect.y, hfault, bind, Except.bind]

end VBox
