import VBox.Lib.Raster
import VBox.Proto.Message
import VBox.Viewer.Frame

/-!
# Viewer.Drag

The scripted drag of `vbox-client input drag` (`lerp_i32` and `build_drag_sequence` in
`crates/client/src/net.rs`). The pointer goes from one point to another in eight steps, and each step
multiplies the distance before it divides.

`drag_on_segment_iff`: for which points the pointer stays on the segment.
-/

namespace VBox

open Raster

/-- The result of an arithmetic step on `i32`s. -/
def i32Fit (n : Int) : Except Fault Int :=
  if -2 ^ 31 ≤ n ∧ n < 2 ^ 31 then .ok n else .error .overflow

/-- `from + (to - from) * step / steps.max(1)` -/
def lerpI32 (start stop step steps : Int32) : Except Fault Int32 := do
  let distance ← i32Fit (stop.toInt - start.toInt)
  let scaled ← i32Fit (distance * step.toInt)
  let part ← i32Fit (scaled.tdiv (max steps.toInt 1))
  let sum ← i32Fit (start.toInt + part)
  return Int32.ofInt sum

/-- The body of the loop. -/
def dragMotion (id : UInt64) (fromX fromY toX toY step : Int32) : Except Fault InputEvent := do
  let x ← lerpI32 fromX toX step 8
  let y ← lerpI32 fromY toY step 8
  return .pointerMotion id x y

def buildDragSequence (id : UInt64) (fromX fromY toX toY : Int32) :
    Except Fault (List InputEvent) := do
  let motions ← [1, 2, 3, 4, 5, 6, 7, 8].mapM (dragMotion id fromX fromY toX toY)
  return [.pointerMotion id fromX fromY, .pointerButton id 0x110 .pressed] ++ motions ++
    [.pointerButton id 0x110 .released]

/-! ## One axis -/

/-- `b` lies between `a` and `c`, in either direction. -/
def Between (a b c : Int32) : Prop :=
  (a.toInt ≤ b.toInt ∧ b.toInt ≤ c.toInt) ∨ (c.toInt ≤ b.toInt ∧ b.toInt ≤ a.toInt)

/-- Eight times the distance is an `i32`. -/
def DragFits (start stop : Int32) : Prop :=
  -2 ^ 28 ≤ stop.toInt - start.toInt ∧ stop.toInt - start.toInt < 2 ^ 28

instance (start stop : Int32) : Decidable (DragFits start stop) :=
  inferInstanceAs (Decidable (_ ∧ _))

/-- The place after `k` of eight steps. -/
def lerpAt (start stop : Int32) (k : Int) : Int :=
  start.toInt + ((stop.toInt - start.toInt) * k).tdiv 8

theorem lerpAt_zero (start stop : Int32) : lerpAt start stop 0 = start.toInt := by
  rw [lerpAt, Int.mul_zero, Int.zero_tdiv, Int.add_zero]

theorem lerpAt_eight (start stop : Int32) : lerpAt start stop 8 = stop.toInt := by
  rw [lerpAt, Int.mul_tdiv_cancel _ (by decide)]
  omega

/-- A later step is nearer to the end. -/
theorem lerpAt_mono (start stop : Int32) {k l : Int} (h : k ≤ l) :
    (start.toInt ≤ stop.toInt → lerpAt start stop k ≤ lerpAt start stop l) ∧
      (stop.toInt ≤ start.toInt → lerpAt start stop l ≤ lerpAt start stop k) := by
  constructor
  · intro hle
    have hmul := Int.mul_le_mul_of_nonneg_left h (show 0 ≤ stop.toInt - start.toInt by omega)
    exact Int.add_le_add_left (Int.tdiv_le_tdiv (by decide) hmul) _
  · intro hle
    have hmul := Int.mul_le_mul_of_nonpos_left (show stop.toInt - start.toInt ≤ 0 by omega) h
    exact Int.add_le_add_left (Int.tdiv_le_tdiv (by decide) hmul) _

theorem toInt_range (n : Int32) : -2 ^ 31 ≤ n.toInt ∧ n.toInt < 2 ^ 31 := ⟨n.le_toInt, n.toInt_lt⟩

/-- The place after some of the steps, as an `i32`. -/
def lerpPoint (start stop step : Int32) : Int32 := Int32.ofInt (lerpAt start stop step.toInt)

section Steps

variable {start stop step : Int32}

theorem toInt_lerpPoint (h0 : 0 ≤ step.toInt) (h8 : step.toInt ≤ 8) :
    (lerpPoint start stop step).toInt = lerpAt start stop step.toInt := by
  have hstart := lerpAt_mono start stop h0
  have hstop := lerpAt_mono start stop h8
  rw [lerpAt_zero] at hstart
  rw [lerpAt_eight] at hstop
  have hrange := toInt_range start
  have hrange' := toInt_range stop
  exact Int32.toInt_ofInt_of_le (by omega) (by omega)

/-- The points move towards the end. -/
theorem between_lerpPoint {step' : Int32} (h0 : 0 ≤ step.toInt) (h : step.toInt ≤ step'.toInt)
    (h8 : step'.toInt ≤ 8) :
    Between (lerpPoint start stop step) (lerpPoint start stop step') stop := by
  have hstep := lerpAt_mono start stop h
  have hstop := lerpAt_mono start stop h8
  rw [lerpAt_eight] at hstop
  rw [Between, toInt_lerpPoint h0 (by omega), toInt_lerpPoint (by omega) h8]
  omega

theorem i32Fit_ok {n : Int} (h : -2 ^ 31 ≤ n ∧ n < 2 ^ 31) : i32Fit n = .ok n := if_pos h

theorem range_of_i32Fit {n m : Int} (h : i32Fit n = .ok m) : -2 ^ 31 ≤ n ∧ n < 2 ^ 31 ∧ m = n := by
  unfold i32Fit at h
  split at h
  · rename_i hn
    cases h
    exact ⟨hn.1, hn.2, rfl⟩
  · cases h

theorem lerpI32_eq (hfits : DragFits start stop) (h0 : 0 ≤ step.toInt) (h8 : step.toInt ≤ 8) :
    lerpI32 start stop step 8 = .ok (lerpPoint start stop step) := by
  obtain ⟨hlow, hhigh⟩ := hfits
  have hscaled : -2 ^ 31 ≤ (stop.toInt - start.toInt) * step.toInt ∧
      (stop.toInt - start.toInt) * step.toInt < 2 ^ 31 := by
    obtain hpos | hneg := Int.le_total 0 (stop.toInt - start.toInt)
    · have hmul := Int.mul_le_mul_of_nonneg_left h8 hpos
      have hnonneg := Int.mul_nonneg hpos h0
      omega
    · have hmul := Int.mul_le_mul_of_nonpos_left hneg h8
      have hnonpos := Int.mul_nonpos_of_nonpos_of_nonneg hneg h0
      omega
  have hpart : -2 ^ 31 ≤ ((stop.toInt - start.toInt) * step.toInt).tdiv 8 ∧
      ((stop.toInt - start.toInt) * step.toInt).tdiv 8 < 2 ^ 31 := by
    have hlower := Int.tdiv_le_tdiv (c := 8) (by decide) hscaled.1
    have hupper := Int.tdiv_le_tdiv (c := 8) (by decide) (Int.le_of_lt hscaled.2)
    have hlowest : (-2 ^ 31 : Int).tdiv 8 = -2 ^ 28 := by decide
    have hhighest : (2 ^ 31 : Int).tdiv 8 = 2 ^ 28 := by decide
    omega
  have hsum := toInt_range (lerpPoint start stop step)
  rw [toInt_lerpPoint h0 h8] at hsum
  have height : max (8 : Int32).toInt 1 = 8 := by decide
  simp only [lerpI32, bind, Except.bind, height]
  rw [i32Fit_ok (by omega)]
  simp only
  rw [i32Fit_ok hscaled]
  simp only
  rw [i32Fit_ok hpart]
  simp only
  rw [← lerpAt, i32Fit_ok hsum]
  rfl

/-- The last step needs eight times the distance. -/
theorem dragFits_of_lerpI32 {point : Int32} (h : lerpI32 start stop 8 8 = .ok point) :
    DragFits start stop := by
  obtain ⟨distance, hdistance, h⟩ := bind_eq_ok.1 h
  obtain ⟨scaled, hscaled, -⟩ := bind_eq_ok.1 h
  obtain ⟨-, -, rfl⟩ := range_of_i32Fit hdistance
  obtain ⟨hlow, hhigh, -⟩ := range_of_i32Fit hscaled
  have height : (8 : Int32).toInt = 8 := by decide
  rw [height] at hlow hhigh
  constructor <;> omega

end Steps

/-! ## The whole drag -/

/-- The sequence is there: the pointer goes down at the start, moves towards the end, and is released
there. -/
def OnSegment (id : UInt64) (fromX fromY toX toY : Int32)
    (result : Except Fault (List InputEvent)) : Prop :=
  ∃ motions : List (Int32 × Int32),
    result = .ok ([.pointerMotion id fromX fromY, .pointerButton id 0x110 .pressed] ++
      motions.map (fun p => .pointerMotion id p.1 p.2) ++ [.pointerButton id 0x110 .released]) ∧
    (∀ p ∈ motions, Between fromX p.1 toX ∧ Between fromY p.2 toY) ∧
    motions.Pairwise (fun p q => Between p.1 q.1 toX ∧ Between p.2 q.2 toY) ∧
    motions.getLast? = some (toX, toY)

/-- The steps of the loop. -/
def dragSteps : List Int32 := [1, 2, 3, 4, 5, 6, 7, 8]

theorem dragSteps_range {step : Int32} (h : step ∈ dragSteps) :
    0 ≤ step.toInt ∧ step.toInt ≤ 8 := by
  have hall : dragSteps.all (fun step => 0 ≤ step.toInt ∧ step.toInt ≤ 8) = true := by decide
  exact of_decide_eq_true (List.all_eq_true.1 hall step h)

theorem dragSteps_increase : dragSteps.Pairwise (·.toInt ≤ ·.toInt) := by decide

/-- The points of the motions. -/
def dragPoints (fromX fromY toX toY : Int32) : List (Int32 × Int32) :=
  dragSteps.map fun step => (lerpPoint fromX toX step, lerpPoint fromY toY step)

section Points

variable {fromX fromY toX toY : Int32}

theorem lerpPoint_zero (start stop : Int32) : lerpPoint start stop 0 = start := by
  rw [lerpPoint, show (0 : Int32).toInt = 0 by decide, lerpAt_zero, Int32.ofInt_toInt]

theorem lerpPoint_eight (start stop : Int32) : lerpPoint start stop 8 = stop := by
  rw [lerpPoint, show (8 : Int32).toInt = 8 by decide, lerpAt_eight, Int32.ofInt_toInt]

theorem dragPoints_between {p : Int32 × Int32} (h : p ∈ dragPoints fromX fromY toX toY) :
    Between fromX p.1 toX ∧ Between fromY p.2 toY := by
  obtain ⟨step, hstep, rfl⟩ := List.mem_map.1 h
  obtain ⟨h0, h8⟩ := dragSteps_range hstep
  have hx : Between (lerpPoint fromX toX 0) (lerpPoint fromX toX step) toX :=
    between_lerpPoint (by decide) h0 h8
  have hy : Between (lerpPoint fromY toY 0) (lerpPoint fromY toY step) toY :=
    between_lerpPoint (by decide) h0 h8
  rw [lerpPoint_zero] at hx hy
  exact ⟨hx, hy⟩

theorem dragPoints_pairwise :
    (dragPoints fromX fromY toX toY).Pairwise
      (fun p q => Between p.1 q.1 toX ∧ Between p.2 q.2 toY) := by
  rw [dragPoints, List.pairwise_map]
  refine dragSteps_increase.imp_of_mem fun {step step'} hstep hstep' hle => ?_
  obtain ⟨h0, -⟩ := dragSteps_range hstep
  obtain ⟨-, h8⟩ := dragSteps_range hstep'
  exact ⟨between_lerpPoint h0 hle h8, between_lerpPoint h0 hle h8⟩

theorem dragPoints_last : (dragPoints fromX fromY toX toY).getLast? = some (toX, toY) := by
  rw [dragPoints, List.getLast?_map, show dragSteps.getLast? = some 8 by decide, Option.map_some,
    lerpPoint_eight, lerpPoint_eight]

theorem dragMotion_eq {id : UInt64} (hx : DragFits fromX toX) (hy : DragFits fromY toY)
    {step : Int32} (hstep : step ∈ dragSteps) :
    dragMotion id fromX fromY toX toY step =
      .ok (.pointerMotion id (lerpPoint fromX toX step) (lerpPoint fromY toY step)) := by
  obtain ⟨h0, h8⟩ := dragSteps_range hstep
  rw [dragMotion, lerpI32_eq hx h0 h8, lerpI32_eq hy h0 h8]
  rfl

theorem dragFits_of_motion {id : UInt64} {event : InputEvent}
    (h : dragMotion id fromX fromY toX toY 8 = .ok event) :
    DragFits fromX toX ∧ DragFits fromY toY := by
  obtain ⟨x, hx, h⟩ := bind_eq_ok.1 h
  obtain ⟨y, hy, -⟩ := bind_eq_ok.1 h
  exact ⟨dragFits_of_lerpI32 hx, dragFits_of_lerpI32 hy⟩

end Points

/-- The pointer stays on the segment, and arrives, if and only if eight times the distance fits on
both axes. -/
theorem drag_on_segment_iff (id : UInt64) (fromX fromY toX toY : Int32) :
    OnSegment id fromX fromY toX toY (buildDragSequence id fromX fromY toX toY) ↔
      DragFits fromX toX ∧ DragFits fromY toY := by
  constructor
  · rintro ⟨motions, hresult, -⟩
    obtain ⟨events, hevents, -⟩ := bind_eq_ok.1 hresult
    obtain ⟨event, hlast⟩ := mapM_mem hevents (show (8 : Int32) ∈ dragSteps by decide)
    exact dragFits_of_motion hlast
  · rintro ⟨hx, hy⟩
    refine ⟨dragPoints fromX fromY toX toY, ?_, fun p hp => dragPoints_between hp,
      dragPoints_pairwise, dragPoints_last⟩
    have hmotions : dragSteps.mapM (dragMotion id fromX fromY toX toY) = .ok _ :=
      mapM_eq fun step hstep => dragMotion_eq hx hy hstep
    rw [buildDragSequence, ← dragSteps, hmotions, dragPoints, List.map_map]
    rfl

/-- A drag of 2^28 pixels to the right. -/
theorem far_drag_overflows :
    buildDragSequence 1 0 0 268435456 0 = .error .overflow ∧
      ¬ OnSegment 1 0 0 268435456 0 (buildDragSequence 1 0 0 268435456 0) := by
  have h : buildDragSequence 1 0 0 268435456 0 = .error .overflow := by decide
  refine ⟨h, ?_⟩
  rintro ⟨motions, hresult, -⟩
  rw [h] at hresult
  cases hresult

end VBox
