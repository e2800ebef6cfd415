import VBox.Session.Sizes

/-!
# Session.Pointer

Which surface the pointer is on. A popup is hit in the rectangle of its route, and it is seen in the
rectangle of its last tile. The route has its place from the positioner and its size from the tile
that a commit sends, so the two rectangles are one only while nothing else changes either of them.

* `sentTile`, `paintedAfter`: the last tile of every child surface. The messages do not name the
  surface, so this is kept beside the compositor.
* `PointerHits`: a popup is hit where it is seen.
* `pointer_on_painted`: so it is in every session that keeps to `HitsKept`.
-/

namespace VBox.Compositor

open Raster

/-- What `pointer_target_at` returns: a surface with its origin, and the point, in the window. -/
structure PointerTarget where
  surface : ObjectId
  originX : Int32
  originY : Int32
  x : Int32
  y : Int32
  deriving DecidableEq

def popupRouteIsPointerCandidate (hasLiveBuffer : Bool) (routeWindowId targetWindowId : UInt64) :
    Bool :=
  hasLiveBuffer && routeWindowId == targetWindowId

/-- `clamp` asserts that its bounds are in order. -/
inductive ClampPanic where
  | minAboveMax
  deriving DecidableEq

def clamp (n lo hi : Int32) : Except ClampPanic Int32 :=
  if lo ≤ hi then .ok (if n < lo then lo else if hi < n then hi else n) else .error .minAboveMax

/-- `size.saturating_sub(1) as i32` -/
def lastPixel (size : UInt32) : Int32 := (if size = 0 then 0 else size - 1).toInt32

namespace App

/-- The body of the loop over the popups, for one of them. -/
def popupTargetAt (app : App) (id : UInt64) (x y : Int32) (key : ObjectId) : Option PointerTarget :=
  match app.popupRoutes.get? key with
  | none => none
  | some route =>
    if popupRouteIsPointerCandidate (app.currentBuffers.contains key) route.windowId id then
      let right := saturatingAddI32 route.x route.width.toInt32
      let bottom := saturatingAddI32 route.y route.height.toInt32
      if route.x ≤ x ∧ x < right ∧ route.y ≤ y ∧ y < bottom then
        some { surface := route.surface, originX := route.x, originY := route.y, x, y }
      else none
    else none

def pointerTargetAt (app : App) (id : UInt64) (x y : Int32) :
    Except ClampPanic (Option PointerTarget) :=
  match app.popupOrder.reverse.findSome? (app.popupTargetAt id x y) with
  | some target => .ok (some target)
  | none =>
    match app.windows.get? id with
    | none => .ok none
    | some window => do
      let rootX ← clamp x 0 (lastPixel window.size.1)
      let rootY ← clamp y 0 (lastPixel window.size.2)
      return some { surface := window.surface, originX := 0, originY := 0, x := rootX, y := rootY }

/-! ## The last tile of a child -/

/-- The tile of a child that `repaint_moved_child_surfaces` sends. -/
def movedTile (app : App) (env : Env) (id : UInt64) (key : ObjectId) : Option FrameTile :=
  (app.childTile env id key).filter fun tile =>
    (app.candidates env id).any fun (child, surface) =>
      child == key && (app.surfaceWindowOffset env surface).any fun (windowId, x, y) =>
        windowId == id && app.geomChanged key (x, y, tile.w, tile.h)

/-- The compositor after the commit of a root, but for the loop over the children. There is no such
loop when the copy fails. -/
def rootPainted (app : App) (env : Env) (surface : ObjectId) (buffer : CommitBuffer)
    (damageCount : Nat) (id : UInt64) : Option App :=
  match (app.copyCommittedShmBuffer env surface buffer damageCount id 0 0).2 with
  | .ok (some tile) => some ((app.cacheBuffer surface buffer).paintedRoot surface id tile)
  | .ok none => some (app.cacheBuffer surface buffer)
  | .error _ => none

/-- The tile of a child surface that a callback sends. -/
def sentTile (app : App) (call : Call) (key : ObjectId) : Option FrameTile :=
  match call.event with
  | .commit surface buffer damageCount =>
    match app.surfaceToWindow.get? surface with
    | some id =>
      (app.rootPainted call.env surface buffer damageCount id).bind fun painted =>
        painted.movedTile call.env id key
    | none =>
      if key = surface then
        (app.surfaceWindowOffset call.env surface).bind fun (id, x, y) =>
          tileOf (app.copyCommittedShmBuffer call.env surface buffer damageCount id x y).2
      else none
  | _ => none

/-- The last tile of every child surface, after a session. -/
def paintedAfter (app : App) (painted : ObjectId → Option FrameTile) :
    List Call → ObjectId → Option FrameTile
  | [] => painted
  | call :: calls =>
    match app.step call with
    | .ok app' => app'.paintedAfter (fun key => (app.sentTile call key).or (painted key)) calls
    | .error _ => painted

/-! ## Where a popup is hit and where it is seen -/

/-- A pixel of a window. -/
structure Inside (x y : Int32) (size : Size) : Prop where
  left : 0 ≤ x.toInt
  right : x.toInt < size.1.toNat
  top : 0 ≤ y.toInt
  bottom : y.toInt < size.2.toNat

/-- A pixel of a tile. -/
structure Covers (tile : FrameTile) (x y : Int32) : Prop where
  left : tile.x.toNat ≤ x.toInt
  right : x.toInt < tile.x.toNat + tile.w.toNat
  top : tile.y.toNat ≤ y.toInt
  bottom : y.toInt < tile.y.toNat + tile.h.toNat

/-- A popup of a window that has a buffer, and whose last tile has the pixel. -/
structure PaintedAt (app : App) (painted : ObjectId → Option FrameTile) (id : UInt64) (x y : Int32)
    (key : ObjectId) (route : PopupRoute) : Prop where
  routed : app.popupRoutes.get? key = some route
  window : route.windowId = id
  cached : app.currentBuffers.contains key = true
  tile : ∃ tile, painted key = some tile ∧ Covers tile x y

/-- The pointer is on the topmost popup that is painted at a pixel of a window, and otherwise on the
window's own surface. -/
structure PointerHits (app : App) (painted : ObjectId → Option FrameTile) : Prop where
  popup : ∀ id window x y, app.windows.get? id = some window → Inside x y window.size →
    ∀ below key above route, app.popupOrder = below ++ key :: above →
      PaintedAt app painted id x y key route →
      (∀ k ∈ above, ∀ r, ¬ PaintedAt app painted id x y k r) →
      app.pointerTargetAt id x y =
        .ok (some { surface := key, originX := route.x, originY := route.y, x, y })
  root : ∀ id window x y, app.windows.get? id = some window → Inside x y window.size →
    ((∃ target, app.pointerTargetAt id x y = .ok (some target) ∧ target.surface = window.surface) ↔
      ∀ key route, ¬ PaintedAt app painted id x y key route)

/-- A tile that is not larger than a route. -/
structure Fits (tile : FrameTile) (route : PopupRoute) : Prop where
  width : tile.w.toNat ≤ route.width.toNat
  height : tile.h.toNat ≤ route.height.toNat

/-- A tile as large as a route, but for what is right of or below the window. -/
structure Fills (tile : FrameTile) (route : PopupRoute) (size : Size) : Prop
    extends Fits tile route where
  right : tile.x.toNat + tile.w.toNat < size.1.toNat → tile.w = route.width
  bottom : tile.y.toNat + tile.h.toNat < size.2.toNat → tile.h = route.height

/-- A window does not show more of a popup than before. -/
structure ShowsNoMore (route : PopupRoute) (size newSize : Size) : Prop where
  right : newSize.1.toNat ≤ size.1.toNat ∨ route.x.toInt + route.width.toNat ≤ size.1.toNat
  bottom : newSize.2.toNat ≤ size.2.toNat ∨ route.y.toInt + route.height.toNat ≤ size.2.toNat

/-- The callbacks after which a popup is still hit where it is seen:
* a popup that has a buffer is not placed anywhere else;
* the first buffer of a popup is shown, and no popup is that begins left of or above the window;
* a window that is painted in a new size sends a popup again as large as it is hit, or it does not
  show more of it. -/
def HitKept (app : App) (call : Call) : Prop :=
  match call.event with
  | .newPopup surface parent positioner | .repositionRequest surface parent positioner =>
    app.currentBuffers.contains surface = true →
      (app.routePopup call.env surface parent positioner).1.popupRoutes.get? surface =
        app.popupRoutes.get? surface
  | .commit surface buffer damageCount =>
    (∀ route, app.popupRoutes.get? surface = some route →
      match app.sentTile call surface with
      | some _ => 0 ≤ route.x.toInt ∧ 0 ≤ route.y.toInt
      | none => app.currentBuffers.contains surface = true ∨ ∀ new, buffer ≠ .new new) ∧
    ∀ id painted size newSize, app.surfaceToWindow.get? surface = some id →
      app.rootPainted call.env surface buffer damageCount id = some painted →
      app.sizes id = some size → painted.sizes id = some newSize →
      ∀ key route, app.popupRoutes.get? key = some route → route.windowId = id →
        app.currentBuffers.contains key = true →
        match painted.movedTile call.env id key with
        | some tile => Fills tile route newSize
        | none => ShowsNoMore route size newSize
  | _ => True

def HitsKept : App → List Call → Prop
  | _, [] => True
  | app, call :: calls => app.HitKept call ∧ ∀ app', app.step call = .ok app' → HitsKept app' calls

variable {app app' : App} {env : Env} {surface key : ObjectId} {id : UInt64} {tile : FrameTile}
  {painted : ObjectId → Option FrameTile} {route : PopupRoute}

/-! ## Tiles and routes -/

theorem surfaceCopyRect_pos {width height : UInt32} {x y : Int32} {bounds : Option SurfaceBounds}
    {rect : CopyRect} (h : surfaceCopyRectWithBounds width height x y bounds = some rect) :
    1 ≤ rect.width.toNat ∧ 1 ≤ rect.height.toNat := by
  have hpos {n : UInt32} (hn : ¬ n = 0) : 1 ≤ n.toNat := by
    have hzero : (0 : UInt32).toNat = 0 := rfl
    rw [← UInt32.toNat_inj, hzero] at hn
    omega
  simp only [surfaceCopyRectWithBounds] at h
  generalize (if x < 0 then unsignedAbs x else 0) = skipX at h
  generalize (if y < 0 then unsignedAbs y else 0) = skipY at h
  split at h
  · cases h
  rename_i hsize
  simp only [not_or, UInt32.not_le] at hsize
  split at h
  · cases h
    have hw := UInt32.toNat_sub_of_le _ _ (UInt32.le_of_lt hsize.1)
    have hh := UInt32.toNat_sub_of_le _ _ (UInt32.le_of_lt hsize.2)
    rw [UInt32.lt_iff_toNat_lt, UInt32.lt_iff_toNat_lt] at hsize
    exact ⟨by simp only [hw]; omega, by simp only [hh]; omega⟩
  · split at h
    · cases h
    split at h
    · cases h
    split at h
    · cases h
    rename_i hcopied
    cases h
    exact ⟨hpos fun hzero => hcopied (.inl hzero), hpos fun hzero => hcopied (.inr hzero)⟩

/-- A tile at an offset in a window. -/
structure Drawn (tile : FrameTile) (id : UInt64) (x y : Int32) : Prop where
  window : tile.id = id
  left : tile.x.toNat = x.toInt.toNat
  top : tile.y.toNat = y.toInt.toNat
  width_pos : 1 ≤ tile.w.toNat
  height_pos : 1 ≤ tile.h.toNat
  width_lt : tile.w.toNat < 2 ^ 31
  height_lt : tile.h.toNat < 2 ^ 31

theorem drawn_of_copy {buffer : Option ShmBuffer} {x y : Int32} {bounds : Option SurfaceBounds}
    (h : copyShmBufferWithBounds buffer id x y bounds = .ok (some tile)) : Drawn tile id x y := by
  obtain ⟨b, rect, bytes, -, hrect, -, -, rfl⟩ := copyShmBuffer_tile h
  have hwithin := surfaceCopyRect_within hrect
  have hpos := surfaceCopyRect_pos hrect
  have hright := hwithin.right
  have hbottom := hwithin.bottom
  have hwidth := b.width.toInt_lt
  have hheight := b.height.toInt_lt
  rw [toNat_nonnegative] at hright hbottom
  refine ⟨rfl, ?_, ?_, hpos.1, hpos.2, ?_, ?_⟩
  · show rect.dstX.toNat = _
    rw [hwithin.dstX, toNat_nonnegative]
  · show rect.dstY.toNat = _
    rw [hwithin.dstY, toNat_nonnegative]
  · show rect.width.toNat < _
    omega
  · show rect.height.toNat < _
    omega

/-- The tile begins where the route does, and is not larger. -/
structure Shows (tile : FrameTile) (route : PopupRoute) : Prop extends Fits tile route where
  drawn : Drawn tile route.windowId route.x route.y
  left : 0 ≤ route.x.toInt
  top : 0 ≤ route.y.toInt
  width_lt : route.width.toNat < 2 ^ 31
  height_lt : route.height.toNat < 2 ^ 31

theorem toInt_toInt32 {n : UInt32} (h : n.toNat < 2 ^ 31) : n.toInt32.toInt = n.toNat := by
  have hlt : 2 * n.toBitVec.toNat < 2 ^ 32 := by
    have hn : n.toBitVec.toNat = n.toNat := rfl
    omega
  exact BitVec.toInt_eq_toNat_of_lt hlt

theorem toInt_saturatingAddI32 (a b : Int32) :
    (saturatingAddI32 a b).toInt = max (-2 ^ 31) (min (a.toInt + b.toInt) (2 ^ 31 - 1)) := by
  rw [saturatingAddI32, clampI32, Int32.toInt_ofInt_of_le (by omega) (by omega)]

/-- One axis: a pixel of the window is in the rectangle of the route if it is in the tile. -/
theorem hit_axis {n place : Int32} {width tileWidth size : UInt32} (hplace : 0 ≤ place.toInt)
    (hwidth : width.toNat < 2 ^ 31) (hle : tileWidth.toNat ≤ width.toNat)
    (hfills : place.toInt.toNat + tileWidth.toNat < size.toNat → tileWidth = width)
    (hsize : size.toNat < 2 ^ 31) (hn : n.toInt < size.toNat) :
    (place ≤ n ∧ n < saturatingAddI32 place width.toInt32) ↔
      ((place.toInt.toNat : Int) ≤ n.toInt ∧ n.toInt < place.toInt.toNat + tileWidth.toNat) := by
  rw [Int32.le_iff_toInt_le, Int32.lt_iff_toInt_lt, toInt_saturatingAddI32, toInt_toInt32 hwidth]
  by_cases hcut : place.toInt.toNat + tileWidth.toNat < size.toNat
  · have heq := congrArg UInt32.toNat (hfills hcut)
    omega
  · omega

/-- **A route is hit at the pixels of its tile.** -/
theorem hit_iff {x y : Int32} {size : Size} (hshows : Shows tile route)
    (hfills : Fills tile route size) (hwidth : size.1.toNat < 2 ^ 31)
    (hheight : size.2.toNat < 2 ^ 31) (hinside : Inside x y size) :
    (route.x ≤ x ∧ x < saturatingAddI32 route.x route.width.toInt32 ∧ route.y ≤ y ∧
      y < saturatingAddI32 route.y route.height.toInt32) ↔ Covers tile x y := by
  have hright := hfills.right
  have hbottom := hfills.bottom
  rw [hshows.drawn.left] at hright
  rw [hshows.drawn.top] at hbottom
  have hx := hit_axis hshows.left hshows.width_lt hfills.width hright hwidth hinside.right
  have hy := hit_axis hshows.top hshows.height_lt hfills.height hbottom hheight hinside.bottom
  rw [← and_assoc, hx, hy]
  constructor
  · rintro ⟨⟨hleft, hlt⟩, htop, hlt'⟩
    refine ⟨?_, ?_, ?_, ?_⟩
    · rwa [hshows.drawn.left]
    · rwa [hshows.drawn.left]
    · rwa [hshows.drawn.top]
    · rwa [hshows.drawn.top]
  · rintro ⟨hleft, hlt, htop, hlt'⟩
    rw [hshows.drawn.left] at hleft hlt
    rw [hshows.drawn.top] at htop hlt'
    exact ⟨⟨hleft, hlt⟩, htop, hlt'⟩

/-- A tile has a pixel, so it reaches the edges of a window that has only one. -/
theorem Shows.fills_pixel (h : Shows tile route) : Fills tile route (1, 1) := by
  have hwidth := h.drawn.width_pos
  have hheight := h.drawn.height_pos
  have hone : (1 : UInt32).toNat = 1 := rfl
  refine ⟨h.toFits, fun hlt => ?_, fun hlt => ?_⟩
  · rw [hone] at hlt
    omega
  · rw [hone] at hlt
    omega

/-- One axis of a window of another size. -/
theorem fills_axis {place : Int32} {left width tileWidth size newSize : UInt32}
    (hplace : 0 ≤ place.toInt) (hleft : left.toNat = place.toInt.toNat)
    (hle : tileWidth.toNat ≤ width.toNat)
    (hfills : left.toNat + tileWidth.toNat < size.toNat → tileWidth = width)
    (hmore : newSize.toNat ≤ size.toNat ∨ place.toInt + width.toNat ≤ size.toNat)
    (hlt : left.toNat + tileWidth.toNat < newSize.toNat) : tileWidth = width := by
  obtain hsmaller | hinside := hmore
  · exact hfills (by omega)
  · by_contra hne
    rw [← UInt32.toNat_inj] at hne
    exact hne (congrArg UInt32.toNat (hfills (by omega)))

theorem Fills.of_showsNoMore {size newSize : Size} (h : Fills tile route size)
    (hshows : Shows tile route) (hmore : ShowsNoMore route size newSize) :
    Fills tile route newSize :=
  ⟨h.toFits, fills_axis hshows.left hshows.drawn.left h.width h.right hmore.right,
    fills_axis hshows.top hshows.drawn.top h.height h.bottom hmore.bottom⟩

/-! ## The pointer -/

variable {roots : Set ObjectId} {window : RemoteWindow} {x y : Int32}

/-- A popup that has a buffer has been painted where it is hit, as far as its window shows it. -/
structure Seen (roots : Set ObjectId) (app : App) (painted : ObjectId → Option FrameTile) : Prop where
  order : ∀ key route, app.popupRoutes.get? key = some route → key ∈ app.popupOrder
  named : ∀ key route, app.popupRoutes.get? key = some route → route.surface = key
  tracked : ∀ key child, app.childSurfaces.get? key = some child → child = key
  roots : ∀ id surface size, app.face id = some (surface, size) → surface ∈ roots
  sizes : ∀ id surface size, app.face id = some (surface, size) →
    1 ≤ size.1.toNat ∧ size.1.toNat < 2 ^ 31 ∧ 1 ≤ size.2.toNat ∧ size.2.toNat < 2 ^ 31
  shown : ∀ key route, app.popupRoutes.get? key = some route →
    app.currentBuffers.contains key = true → ∃ tile, painted key = some tile ∧ Shows tile route ∧
      ∀ size, app.sizes route.windowId = some size → Fills tile route size

/-- A pixel of the window is left where it is. -/
theorem clamp_pixel {n : Int32} {size : UInt32} (hn : 0 ≤ n.toInt) (hlt : n.toInt < size.toNat)
    (hsize : size.toNat < 2 ^ 31) : clamp n 0 (lastPixel size) = .ok n := by
  have hpos : ¬ size = 0 := by
    rintro rfl
    have hzero : (0 : UInt32).toNat = 0 := rfl
    omega
  have hone : (1 : UInt32).toNat = 1 := rfl
  have hle : 1 ≤ size := by
    rw [UInt32.le_iff_toNat_le]
    omega
  have hsub := UInt32.toNat_sub_of_le _ _ hle
  have hlast : (lastPixel size).toInt = size.toNat - 1 := by
    rw [lastPixel, if_neg hpos, toInt_toInt32 (by omega)]
    omega
  have hzero : (0 : Int32).toInt = 0 := rfl
  simp only [clamp, Int32.le_iff_toInt_le, Int32.lt_iff_toInt_lt, hlast, hzero]
  rw [if_pos (by omega), if_neg (by omega), if_neg (by omega)]

theorem Seen.popupTargetAt_eq_some (hs : Seen roots app painted)
    (hwindow : app.windows.get? id = some window) (hinside : Inside x y window.size)
    {target : PointerTarget} : app.popupTargetAt id x y key = some target ↔
      ∃ route, PaintedAt app painted id x y key route ∧
        target = { surface := key, originX := route.x, originY := route.y, x, y } := by
  obtain ⟨-, hwidth, -, hheight⟩ := hs.sizes id _ _ (face_eq_some hwindow)
  unfold popupTargetAt
  split
  · rename_i hnone
    refine iff_of_false (Option.some_ne_none _).symm ?_
    rintro ⟨route, hpainted, -⟩
    rw [hpainted.routed] at hnone
    cases hnone
  rename_i route hroute
  simp only [popupRouteIsPointerCandidate, Bool.and_eq_true, beq_iff_eq]
  split
  · rename_i hcandidate
    obtain ⟨tile, htile, hshows, hfills⟩ := hs.shown key route hroute hcandidate.1
    have hhit := hit_iff hshows (hfills _ (by rw [hcandidate.2]; exact sizes_eq_some hwindow)) hwidth
      hheight hinside
    rw [hs.named key route hroute]
    split
    · rename_i hpixel
      rw [Option.some_inj, eq_comm]
      refine ⟨fun htarget => ⟨route, ⟨hroute, hcandidate.2, hcandidate.1, tile, htile,
        hhit.1 hpixel⟩, htarget⟩, ?_⟩
      rintro ⟨route', hpainted, htarget⟩
      obtain rfl := Option.some.inj (hroute.symm.trans hpainted.routed)
      exact htarget
    · rename_i hpixel
      refine iff_of_false (Option.some_ne_none _).symm ?_
      rintro ⟨route', hpainted, -⟩
      obtain ⟨tile', htile', hcovers⟩ := hpainted.tile
      rw [htile] at htile'
      obtain rfl := Option.some.inj htile'
      exact hpixel (hhit.2 hcovers)
  · rename_i hcandidate
    refine iff_of_false (Option.some_ne_none _).symm ?_
    rintro ⟨route', hpainted, -⟩
    obtain rfl := Option.some.inj (hroute.symm.trans hpainted.routed)
    exact hcandidate ⟨hpainted.cached, hpainted.window⟩

theorem Seen.popupTargetAt_eq_none (hs : Seen roots app painted)
    (hwindow : app.windows.get? id = some window) (hinside : Inside x y window.size)
    (h : ∀ route, ¬ PaintedAt app painted id x y key route) :
    app.popupTargetAt id x y key = none := by
  refine Option.eq_none_iff_forall_ne_some.2 fun target htarget => ?_
  obtain ⟨route, hpainted, -⟩ := (hs.popupTargetAt_eq_some hwindow hinside).1 htarget
  exact h route hpainted

/-- With nothing painted over it, the pointer is on the window's own surface. -/
theorem Seen.pointerTargetAt_root (hs : Seen roots app painted)
    (hwindow : app.windows.get? id = some window) (hinside : Inside x y window.size)
    (h : ∀ key route, ¬ PaintedAt app painted id x y key route) :
    app.pointerTargetAt id x y =
      .ok (some { surface := window.surface, originX := 0, originY := 0, x, y }) := by
  obtain ⟨-, hwidth, -, hheight⟩ := hs.sizes id _ _ (face_eq_some hwindow)
  have hnone : app.popupOrder.reverse.findSome? (app.popupTargetAt id x y) = none :=
    List.findSome?_eq_none_iff.2 fun key _ => hs.popupTargetAt_eq_none hwindow hinside (h key)
  simp only [pointerTargetAt, hnone, hwindow, clamp_pixel hinside.left hinside.right hwidth,
    clamp_pixel hinside.top hinside.bottom hheight]
  rfl

/-- The loop goes from the top down. -/
theorem Seen.pointerTargetAt_popup (hs : Seen roots app painted)
    (hwindow : app.windows.get? id = some window) (hinside : Inside x y window.size)
    {below above : List ObjectId} (horder : app.popupOrder = below ++ key :: above)
    (hpainted : PaintedAt app painted id x y key route)
    (habove : ∀ k ∈ above, ∀ r, ¬ PaintedAt app painted id x y k r) :
    app.pointerTargetAt id x y =
      .ok (some { surface := key, originX := route.x, originY := route.y, x, y }) := by
  have hkey : app.popupTargetAt id x y key =
      some { surface := key, originX := route.x, originY := route.y, x, y } :=
    (hs.popupTargetAt_eq_some hwindow hinside).2 ⟨route, hpainted, rfl⟩
  have hnone : above.reverse.findSome? (app.popupTargetAt id x y) = none := by
    refine List.findSome?_eq_none_iff.2 fun k hk => ?_
    exact hs.popupTargetAt_eq_none hwindow hinside (habove k (List.mem_reverse.1 hk))
  have hfirst : app.popupOrder.reverse.findSome? (app.popupTargetAt id x y) =
      some { surface := key, originX := route.x, originY := route.y, x, y } := by
    rw [horder, List.reverse_append, List.reverse_cons, List.findSome?_append, List.findSome?_append,
      hnone]
    simp [hkey]
  simp only [pointerTargetAt, hfirst]

/-- **A popup is hit where it is seen.** -/
theorem Seen.pointerHits (hs : Seen roots app painted) (hroles : RolesKept roots app) :
    PointerHits app painted := by
  refine ⟨fun id window x y hwindow hinside below key above route horder hpainted habove =>
    hs.pointerTargetAt_popup hwindow hinside horder hpainted habove,
    fun id window x y hwindow hinside => ⟨?_, fun h => ?_⟩⟩
  · rintro ⟨target, htarget, hsurface⟩ key route hpainted
    -- one of the popups that are painted here is the topmost
    have hfound : app.popupOrder.reverse.findSome? (app.popupTargetAt id x y) ≠ none := by
      intro hnone
      have hkey := List.findSome?_eq_none_iff.1 hnone key
        (List.mem_reverse.2 (hs.order key route hpainted.routed))
      rw [(hs.popupTargetAt_eq_some hwindow hinside).2 ⟨route, hpainted, rfl⟩] at hkey
      cases hkey
    obtain ⟨top, htop⟩ := Option.ne_none_iff_exists'.1 hfound
    simp only [pointerTargetAt, htop, Except.ok.injEq, Option.some.injEq] at htarget
    subst htarget
    obtain ⟨topKey, -, htop⟩ := List.exists_of_findSome?_eq_some htop
    obtain ⟨topRoute, htopPainted, rfl⟩ := (hs.popupTargetAt_eq_some hwindow hinside).1 htop
    -- and no popup is on the surface of a window
    have hroot := hroles.popups window.surface (hs.roots id _ _ (face_eq_some hwindow))
    rw [← hsurface, htopPainted.routed] at hroot
    cases hroot
  · exact ⟨_, hs.pointerTargetAt_root hwindow hinside h, rfl⟩

/-! ## What keeps popups where they are seen -/

/-- No popup comes or changes, none gets a buffer, and no window but one of a single pixel comes. -/
theorem Seen.of_sub (hs : Seen roots app painted)
    (hroutes : ∀ key route, app'.popupRoutes.get? key = some route →
      app.popupRoutes.get? key = some route)
    (horder : ∀ key, app'.popupRoutes.contains key = true → key ∈ app.popupOrder →
      key ∈ app'.popupOrder)
    (htracked : ∀ key child, app'.childSurfaces.get? key = some child →
      app.childSurfaces.get? key = some child)
    (hfaces : ∀ id surface size, app'.face id = some (surface, size) →
      app.face id = some (surface, size) ∨ surface ∈ roots ∧ size = (1, 1))
    (hbuffers : ∀ key route, app'.popupRoutes.get? key = some route →
      app'.currentBuffers.contains key = true → app.currentBuffers.contains key = true) :
    Seen roots app' painted := by
  refine ⟨fun key route h => ?_, fun key route h => hs.named key route (hroutes key route h),
    fun key child h => hs.tracked key child (htracked key child h), fun id surface size h => ?_,
    fun id surface size h => ?_, fun key route h hcached => ?_⟩
  · exact horder key (Table.contains_of_get? h) (hs.order key route (hroutes key route h))
  · obtain h | ⟨hsurface, -⟩ := hfaces id surface size h
    · exact hs.roots id surface size h
    · exact hsurface
  · obtain h | ⟨-, rfl⟩ := hfaces id surface size h
    · exact hs.sizes id surface size h
    · decide
  · obtain ⟨tile, htile, hshows, hfills⟩ :=
      hs.shown key route (hroutes key route h) (hbuffers key route h hcached)
    refine ⟨tile, htile, hshows, fun size hsize => ?_⟩
    obtain ⟨⟨surface, size'⟩, hface, rfl⟩ := Option.map_eq_some_iff.1 hsize
    obtain hold | ⟨-, hone⟩ := hfaces _ surface size' hface
    · exact hfills size' (by rw [App.sizes, hold]; rfl)
    · rw [hone]
      exact hshows.fills_pixel

theorem SameScene.seen (h : SameScene app app') (hs : Seen roots app painted) :
    Seen roots app' painted := by
  refine hs.of_sub (fun key route hroute => ?_) (fun key _ hkey => ?_) (fun key child hchild => ?_)
    (fun id surface size hface => .inl ?_) (fun key _ _ hkey => ?_)
  · rwa [h.popupRoutes] at hroute
  · rwa [h.popupOrder]
  · rwa [h.childSurfaces] at hchild
  · rwa [h.faces] at hface
  · rwa [h.currentBuffers] at hkey

theorem Seen.released (hs : Seen roots app painted) (buffer : BufferId) :
    Seen roots (app.bufferDestroyed buffer) painted :=
  hs.of_sub (fun _ _ h => h) (fun _ _ h => h) (fun _ _ h => h) (fun _ _ _ h => .inl h)
    fun _ _ _ h => Table.contains_of_retain h

theorem Seen.enqueueTiles (hs : Seen roots app painted) (tiles : List FrameTile) :
    Seen roots (app.enqueueTiles tiles) painted :=
  hs.of_sub (fun _ _ h => h) (fun _ _ h => h) (fun _ _ h => h) (fun _ _ _ h => .inl h)
    fun _ _ _ h => h

theorem Seen.enqueueMessage (hs : Seen roots app painted) (msg : Message) :
    Seen roots (app.enqueueMessage msg) painted :=
  hs.of_sub (fun _ _ h => h) (fun _ _ h => h) (fun _ _ h => h) (fun _ _ _ h => .inl h)
    fun _ _ _ h => h

theorem Seen.forgotten (hs : Seen roots app painted) (surface : ObjectId) :
    Seen roots (app.forgotten surface) painted := by
  obtain ⟨-, hwindows, hbuffers, hchildren⟩ := forgotten_frame app surface
  refine hs.of_sub (fun key route h => ?_) (fun key hkey hmem => ?_) (fun key child h => ?_)
    (fun id _ size h => .inl ?_) (fun key _ _ h => ?_)
  · rw [get?_popupRoutes_forgotten] at h
    split at h
    · cases h
    · exact h
  · rw [Table.contains, get?_popupRoutes_forgotten] at hkey
    split at hkey
    · cases hkey
    rename_i hne
    unfold App.forgotten removePopupRouteForSurface
    split
    · exact hmem
    · exact List.mem_filter.2 ⟨hmem, by simpa using hne⟩
  · rw [hchildren] at h
    exact Table.get?_of_remove h
  · rwa [face, hwindows] at h
  · rw [hbuffers] at h
    exact Table.contains_of_remove h

theorem Seen.created (hs : Seen roots app painted) (hsurface : surface ∈ roots)
    (title appId : String) : Seen roots (app.newToplevel surface title appId) painted := by
  have hadded : Seen roots (app.addWindow surface) painted := by
    refine hs.of_sub (fun _ _ h => h) (fun _ _ h => h) (fun _ _ h => h) (fun id root size h => ?_)
      fun _ _ _ h => h
    rw [face_addWindow] at h
    split at h
    · cases h
      exact .inr ⟨hsurface, rfl⟩
    · exact .inl h
  obtain ⟨focused, hscene, heq⟩ := newToplevel_eq app surface title appId
  rw [heq]
  exact (hscene.seen hadded).enqueueMessage _

theorem Seen.closed (hs : Seen roots app painted) (env : Env)
    (hroot : app.surfaceToWindow.get? surface = some id) :
    Seen roots (app.toplevelDestroyed env surface) painted := by
  have hremoved : Seen roots (app.removeWindow surface id) painted := by
    refine hs.of_sub (fun key route h => ?_) (fun key h hmem => ?_) (fun key child h => ?_)
      (fun i root size h => .inl ?_) fun key _ _ h => ?_
    · exact (Option.filter_eq_some_iff.1 h).1
    · exact List.mem_filter.2 ⟨hmem, h⟩
    · exact (Option.filter_eq_some_iff.1 h).1
    · obtain ⟨window, hwindow, hface⟩ := Option.map_eq_some_iff.1 h
      rw [face, Table.get?_of_remove hwindow, Option.map_some, hface]
    · exact Table.contains_of_remove h
  obtain ⟨focused, hscene, heq⟩ := toplevelDestroyed_eq env hroot
  rw [heq]
  exact (hscene.seen hremoved).enqueueMessage _

/-- A popup that has a buffer stays where it is. -/
theorem Seen.routed (hs : Seen roots app painted) {parent : Option ObjectId}
    {positioner : PositionerState} (hkept : app.currentBuffers.contains surface = true →
      (app.routePopup env surface parent positioner).1.popupRoutes.get? surface =
        app.popupRoutes.get? surface) :
    Seen roots (app.routePopup env surface parent positioner).1 painted := by
  obtain heq | ⟨placed, hplaced, heq⟩ := routePopup_cases app env surface parent positioner
  · rw [heq]
    exact hs
  rw [heq] at hkept ⊢
  rw [Table.get?_insert, if_pos rfl] at hkept
  refine ⟨fun key route h => ?_, fun key route h => ?_, hs.tracked, hs.roots, hs.sizes,
    fun key route h hcached => ?_⟩
  · rw [Table.get?_insert] at h
    split at h
    · rename_i hkey
      simp [hkey]
    · rename_i hkey
      simp [hkey, hs.order key route h]
  · rw [Table.get?_insert] at h
    split at h
    · rename_i hkey
      cases h
      rw [hplaced, hkey]
    · exact hs.named key route h
  · rw [Table.get?_insert] at h
    split at h
    · rename_i hkey
      subst hkey
      rw [h] at hkept
      exact hs.shown key route (hkept hcached).symm hcached
    · exact hs.shown key route h hcached

/-! ### Commits -/

section Commit

variable {buffer : CommitBuffer} {damageCount : Nat} {mid : App}

theorem movedTile_eq_some : app.movedTile env id key = some tile ↔
    app.childTile env id key = some tile ∧ app.Moves env id key tile := by
  rw [movedTile, Option.filter_eq_some_iff]
  refine and_congr_right fun _ => ?_
  simp only [List.any_eq_true, Bool.and_eq_true, beq_iff_eq]
  constructor
  · rintro ⟨⟨child, surface⟩, hmem, rfl, hchanged⟩
    obtain ⟨⟨windowId, x, y⟩, hoffset, hmoved⟩ := (Option.any_eq_true _ _).1 hchanged
    simp only [Bool.and_eq_true, beq_iff_eq] at hmoved
    obtain ⟨rfl, hmoved⟩ := hmoved
    exact ⟨surface, x, y, hmem, hoffset, hmoved⟩
  · rintro ⟨surface, x, y, hmem, hoffset, hchanged⟩
    exact ⟨(key, surface), hmem, rfl, by simp [hoffset, hchanged]⟩

/-- The tile of a popup that is sent again is at its route. -/
theorem drawn_of_movedTile (hroles : RolesKept roots app)
    (htracked : ∀ key child, app.childSurfaces.get? key = some child → child = key)
    (hroute : app.popupRoutes.get? key = some route) (h : app.movedTile env id key = some tile) :
    route.windowId = id ∧ Drawn tile id route.x route.y ∧ ∃ size, app.sizes id = some size := by
  obtain ⟨child, x, y, window, buffer, hchild, hoffset, hwindow, -, hcopy⟩ :=
    childTile_eq_some.1 (movedTile_eq_some.1 h).1
  obtain rfl := htracked key child hchild
  have hroot : app.surfaceToWindow.get? child = none := by
    refine Option.eq_none_iff_forall_ne_some.2 fun i hi => ?_
    have hnone := hroles.popups child (hroles.toplevels child i hi)
    rw [hroute] at hnone
    cases hnone
  rw [surfaceWindowOffset_route hroot hroute] at hoffset
  cases hoffset
  exact ⟨rfl, drawn_of_copy hcopy, window.size, sizes_eq_some hwindow⟩

theorem get?_updatePopupSize (hnone : app.popupRoutes.get? surface = none) (width height : UInt32)
    (key : ObjectId) : (app.updatePopupSize surface width height).popupRoutes.get? key =
      app.popupRoutes.get? key := by
  simp only [updatePopupSize, Table.get?_modify, hnone, Option.map_none]
  split
  · rename_i hkey
    rw [hkey, hnone]
  · rfl

/-- Only the size of the window changes. -/
theorem paintedRoot_frame (app : App) (surface : ObjectId) (id : UInt64) (tile : FrameTile) :
    (app.paintedRoot surface id tile).popupRoutes =
        (app.updatePopupSize surface tile.w tile.h).popupRoutes ∧
      (app.paintedRoot surface id tile).popupOrder = app.popupOrder ∧
      (app.paintedRoot surface id tile).childSurfaces = app.childSurfaces ∧
      (app.paintedRoot surface id tile).surfaceToWindow = app.surfaceToWindow ∧
      (app.paintedRoot surface id tile).currentBuffers = app.currentBuffers ∧
      ∀ i, (app.paintedRoot surface id tile).face i =
        if i = id then (app.face i).map fun (root, _) => (root, nonzeroSize (tile.w, tile.h))
        else app.face i := by
  have hwindows : (app.updatePopupSize surface tile.w tile.h).windows = app.windows := rfl
  simp only [paintedRoot, resizeRootWindow, hwindows]
  cases hwindow : app.windows.get? id with
  | none =>
    refine ⟨rfl, rfl, rfl, rfl, rfl, fun i => ?_⟩
    show app.face i = _
    split
    · rename_i hi
      simp [face, hi, hwindow]
    · rfl
  | some window =>
    by_cases hsize : window.size = nonzeroSize (tile.w, tile.h)
    · simp only [hsize, if_true]
      refine ⟨rfl, rfl, rfl, rfl, rfl, fun i => ?_⟩
      show app.face i = _
      split
      · rename_i hi
        simp [face, hi, hwindow, RemoteWindow.face, hsize]
      · rfl
    · simp only [hsize, if_false]
      refine ⟨rfl, rfl, rfl, rfl, rfl, fun i => ?_⟩
      refine (face_setWindow app id { window with size := nonzeroSize (tile.w, tile.h) } i).trans ?_
      split
      · rename_i hi
        simp [face, hi, hwindow, RemoteWindow.face]
      · rfl

theorem Drawn.nonzeroSize_le (h : Drawn tile id x y) :
    1 ≤ (nonzeroSize (tile.w, tile.h)).1.toNat ∧ (nonzeroSize (tile.w, tile.h)).1.toNat < 2 ^ 31 ∧
      1 ≤ (nonzeroSize (tile.w, tile.h)).2.toNat ∧
      (nonzeroSize (tile.w, tile.h)).2.toNat < 2 ^ 31 := by
  have hwidth := h.width_lt
  have hheight := h.height_lt
  have hone : (1 : UInt32).toNat = 1 := rfl
  simp only [nonzeroSize, toNat_max, hone]
  omega

theorem rootPainted_frame (hnone : app.popupRoutes.get? surface = none)
    (h : app.rootPainted env surface buffer damageCount id = some mid) :
    (∀ key, mid.popupRoutes.get? key = app.popupRoutes.get? key) ∧
      mid.popupOrder = app.popupOrder ∧ mid.childSurfaces = app.childSurfaces ∧
      mid.surfaceToWindow = app.surfaceToWindow ∧
      (∀ key, key ≠ surface → mid.currentBuffers.get? key = app.currentBuffers.get? key) ∧
      ∀ i root size, mid.face i = some (root, size) → ∃ old, app.face i = some (root, old) ∧
        (old = size ∨ i = id ∧ 1 ≤ size.1.toNat ∧ size.1.toNat < 2 ^ 31 ∧ 1 ≤ size.2.toNat ∧
          size.2.toNat < 2 ^ 31) := by
  have hcached (key : ObjectId) (hkey : key ≠ surface) :=
    get?_cacheBuffer app buffer (Ne.symm hkey)
  unfold rootPainted at h
  split at h
  · rename_i tile hcopied
    cases h
    obtain ⟨cached, -, hcopy⟩ := copyCommittedShmBuffer_copy hcopied
    have hnone' : (app.cacheBuffer surface buffer).popupRoutes.get? surface = none := by
      simpa using hnone
    obtain ⟨hroutes, horder, hchildren, hroots, hbuffers, hfaces⟩ :=
      paintedRoot_frame (app.cacheBuffer surface buffer) surface id tile
    refine ⟨fun key => ?_, ?_, ?_, ?_, fun key hkey => ?_, fun i root size hface => ?_⟩
    · rw [hroutes, get?_updatePopupSize hnone']
      simp
    · rw [horder]
      simp
    · rw [hchildren]
      simp
    · rw [hroots]
      simp
    · rw [hbuffers, hcached key hkey]
    · have hsame : (app.cacheBuffer surface buffer).face i = app.face i := by simp [face]
      rw [hfaces i, hsame] at hface
      split at hface
      · rename_i hi
        obtain ⟨⟨root', old⟩, hold, heq⟩ := Option.map_eq_some_iff.1 hface
        cases heq
        exact ⟨old, hold, .inr ⟨hi, (drawn_of_copy hcopy).nonzeroSize_le⟩⟩
      · exact ⟨size, hface, .inl rfl⟩
  · cases h
    refine ⟨fun key => by simp, by simp, by simp, by simp, hcached, fun i root size hface => ?_⟩
    exact ⟨size, by simpa [face] using hface, .inl rfl⟩
  · cases h

/-- A window is painted: its popups are sent again where they are hit, or they are no more to be
seen than before. -/
theorem Seen.rootPainted (hs : Seen roots app painted) (hroles : RolesKept roots app)
    (hroot : app.surfaceToWindow.get? surface = some id)
    (hmid : app.rootPainted env surface buffer damageCount id = some mid)
    (hkept : ∀ size newSize, app.sizes id = some size → mid.sizes id = some newSize →
      ∀ key route, app.popupRoutes.get? key = some route → route.windowId = id →
        app.currentBuffers.contains key = true →
        match mid.movedTile env id key with
        | some tile => Fills tile route newSize
        | none => ShowsNoMore route size newSize) :
    Seen roots mid fun key => (mid.movedTile env id key).or (painted key) := by
  have hnone := hroles.popups surface (hroles.toplevels surface id hroot)
  obtain ⟨hroutes, horder, hchildren, hroots, hbuffers, hfaces⟩ := rootPainted_frame hnone hmid
  have hrolesMid : RolesKept roots mid := hroles.of_places hroots fun key => by rw [hroutes key]
  have htracked : ∀ key child, mid.childSurfaces.get? key = some child → child = key := by
    rw [hchildren]
    exact hs.tracked
  refine ⟨fun key route h => ?_, fun key route h => hs.named key route (hroutes key ▸ h), htracked,
    fun i root size h => ?_, fun i root size h => ?_, fun key route h hcached => ?_⟩
  · rw [horder]
    exact hs.order key route (hroutes key ▸ h)
  · obtain ⟨old, hold, -⟩ := hfaces i root size h
    exact hs.roots i root old hold
  · obtain ⟨old, hold, rfl | ⟨-, hbounds⟩⟩ := hfaces i root size h
    · exact hs.sizes i root old hold
    · exact hbounds
  · rw [hroutes key] at h
    have hne : key ≠ surface := by
      rintro rfl
      rw [hnone] at h
      cases h
    rw [Table.contains, hbuffers key hne] at hcached
    obtain ⟨old, hold, hshows, hfills⟩ := hs.shown key route h hcached
    cases hmoved : mid.movedTile env id key with
    | some tile =>
      obtain ⟨rfl, hdrawn, newSize, hnew⟩ :=
        drawn_of_movedTile hrolesMid htracked ((hroutes key).trans h) hmoved
      obtain ⟨⟨root, _⟩, hface, rfl⟩ := Option.map_eq_some_iff.1 hnew
      obtain ⟨size, hsize, -⟩ := hfaces _ root _ hface
      have hfill := hkept size _ (by rw [App.sizes, hsize]; rfl) hnew key route h rfl hcached
      rw [hmoved] at hfill
      refine ⟨tile, rfl, ⟨hfill.toFits, hdrawn, hshows.left, hshows.top, hshows.width_lt,
        hshows.height_lt⟩, fun size' hsize' => ?_⟩
      rw [hnew] at hsize'
      cases hsize'
      exact hfill
    | none =>
      refine ⟨old, hold, hshows, fun newSize hnew => ?_⟩
      obtain ⟨⟨root, _⟩, hface, rfl⟩ := Option.map_eq_some_iff.1 hnew
      obtain ⟨size, hsize, rfl | ⟨hid, -⟩⟩ := hfaces _ root _ hface
      · exact hfills size (by rw [App.sizes, hsize]; rfl)
      · have hsize' : app.sizes id = some size := by rw [← hid, App.sizes, hsize]; rfl
        have hmore := hkept size _ hsize' (hid ▸ hnew) key route h hid hcached
        rw [hmoved] at hmore
        exact (hfills size (hid ▸ hsize')).of_showsNoMore hshows hmore

/-- A child commits: the other popups are as they were. -/
theorem Seen.child (hs : Seen roots app painted) (surface : ObjectId)
    {painted' : ObjectId → Option FrameTile}
    (hroutes : ∀ key, key ≠ surface → app'.popupRoutes.get? key = app.popupRoutes.get? key)
    (hown : (app'.popupRoutes.get? surface).map (·.surface) =
      (app.popupRoutes.get? surface).map (·.surface))
    (horder : app'.popupOrder = app.popupOrder)
    (hchildren : app'.childSurfaces = app.childSurfaces.insert surface surface)
    (hfaces : ∀ i, app'.face i = app.face i)
    (hbuffers : ∀ key, key ≠ surface → app'.currentBuffers.get? key = app.currentBuffers.get? key)
    (hpainted : ∀ key, key ≠ surface → painted' key = painted key)
    (hshown : ∀ route, app'.popupRoutes.get? surface = some route →
      app'.currentBuffers.contains surface = true → ∃ tile, painted' surface = some tile ∧
        Shows tile route ∧ ∀ size, app.sizes route.windowId = some size → Fills tile route size) :
    Seen roots app' painted' := by
  have hsizes (i : UInt64) : app'.sizes i = app.sizes i := by rw [App.sizes, hfaces, App.sizes]
  have hold : ∀ key route, app'.popupRoutes.get? key = some route →
      ∃ old, app.popupRoutes.get? key = some old ∧ old.surface = route.surface := by
    intro key route h
    by_cases hkey : key = surface
    · subst hkey
      rw [h, Option.map_some] at hown
      exact Option.map_eq_some_iff.1 hown.symm
    · exact ⟨route, hroutes key hkey ▸ h, rfl⟩
  refine ⟨fun key route h => ?_, fun key route h => ?_, fun key child h => ?_,
    fun i root size h => hs.roots i root size (hfaces i ▸ h),
    fun i root size h => hs.sizes i root size (hfaces i ▸ h), fun key route h hcached => ?_⟩
  · obtain ⟨old, hold, -⟩ := hold key route h
    rw [horder]
    exact hs.order key old hold
  · obtain ⟨old, hold, hsame⟩ := hold key route h
    rw [← hsame]
    exact hs.named key old hold
  · rw [hchildren, Table.get?_insert] at h
    split at h
    · rename_i hkey
      cases h
      exact hkey.symm
    · exact hs.tracked key child h
  · by_cases hkey : key = surface
    · subst hkey
      obtain ⟨tile, htile, hshows, hfills⟩ := hshown route h hcached
      exact ⟨tile, htile, hshows, fun size hsize => hfills size (hsizes _ ▸ hsize)⟩
    · rw [hroutes key hkey] at h
      rw [Table.contains, hbuffers key hkey] at hcached
      obtain ⟨tile, htile, hshows, hfills⟩ := hs.shown key route h hcached
      exact ⟨tile, by rw [hpainted key hkey, htile], hshows,
        fun size hsize => hfills size (hsizes _ ▸ hsize)⟩

/-- A route that takes the size of a tile is hit where the tile is. -/
theorem Drawn.shows (h : Drawn tile route.windowId route.x route.y) (hx : 0 ≤ route.x.toInt)
    (hy : 0 ≤ route.y.toInt) (size : Size) :
    Shows tile { route with width := max tile.w 1, height := max tile.h 1 } ∧
      Fills tile { route with width := max tile.w 1, height := max tile.h 1 } size := by
  have hmax {n : UInt32} (hn : 1 ≤ n.toNat) : max n 1 = n := by
    rw [← UInt32.toNat_inj, toNat_max]
    exact Nat.max_eq_left hn
  rw [hmax h.width_pos, hmax h.height_pos]
  exact ⟨⟨⟨le_rfl, le_rfl⟩, ⟨h.window, h.left, h.top, h.width_pos, h.height_pos, h.width_lt,
    h.height_lt⟩, hx, hy, h.width_lt, h.height_lt⟩, ⟨le_rfl, le_rfl⟩, fun _ => rfl, fun _ => rfl⟩

theorem Seen.childTile (hs : Seen roots app painted)
    (hroot : app.surfaceToWindow.get? surface = none)
    (hoffset : app.surfaceWindowOffset env surface = some (id, x, y))
    (hcopied : (app.copyCommittedShmBuffer env surface buffer damageCount id x y).2 = .ok (some tile))
    (h : ((app.trackChild surface id).cacheBuffer surface buffer).commitChild env surface id x y
      tile = .ok app')
    (hkept : ∀ route, app.popupRoutes.get? surface = some route →
      0 ≤ route.x.toInt ∧ 0 ≤ route.y.toInt) :
    Seen roots app' fun key => (if key = surface then some tile else none).or (painted key) := by
  obtain ⟨cached, -, hcopy⟩ := copyCommittedShmBuffer_copy hcopied
  rw [commitChild_eq h]
  refine hs.child surface (fun key hkey => ?_) ?_ ?_ ?_ (fun i => ?_) (fun key hkey => ?_)
    (fun key hkey => ?_) (fun route hroute _ => ⟨tile, by simp, ?_⟩)
  · simp [App.enqueueTiles, updatePopupSize, App.trackChild, hkey]
  · simp [App.enqueueTiles, updatePopupSize, App.trackChild, Option.map_map, Function.comp_def]
  · simp [App.enqueueTiles, updatePopupSize, App.trackChild]
  · simp [App.enqueueTiles, updatePopupSize, App.trackChild]
  · simp [App.enqueueTiles, updatePopupSize, App.trackChild, face]
  · exact get?_cacheBuffer (app.trackChild surface id) buffer (Ne.symm hkey)
  · simp [hkey]
  · simp only [App.enqueueTiles, updatePopupSize, App.trackChild, popupRoutes_cacheBuffer,
      Table.get?_modify, if_true, Option.map_eq_some_iff] at hroute
    obtain ⟨old, hold, rfl⟩ := hroute
    rw [surfaceWindowOffset_route hroot hold] at hoffset
    cases hoffset
    obtain ⟨hx, hy⟩ := hkept old hold
    have hdrawn : Drawn tile old.windowId old.x old.y := drawn_of_copy hcopy
    have hshows (size : Size) := hdrawn.shows hx hy size
    exact ⟨(hshows (1, 1)).1, fun size _ => (hshows size).2⟩

/-- Without a tile, a popup keeps its last one. -/
theorem Seen.childNone (hs : Seen roots app painted) (hremoved : buffer ≠ .removed)
    (hkept : ∀ route, app.popupRoutes.get? surface = some route →
      app.currentBuffers.contains surface = true ∨ ∀ new, buffer ≠ .new new) :
    Seen roots ((app.trackChild surface id).cacheBuffer surface buffer) painted := by
  refine hs.child surface (fun key _ => ?_) ?_ ?_ ?_ (fun i => ?_) (fun key hkey => ?_)
    (fun _ _ => rfl) (fun route hroute hcached => ?_)
  · simp [App.trackChild]
  · simp [App.trackChild]
  · simp [App.trackChild]
  · simp [App.trackChild]
  · simp [App.trackChild, face]
  · exact get?_cacheBuffer (app.trackChild surface id) buffer (Ne.symm hkey)
  · have hroute' : app.popupRoutes.get? surface = some route := by
      simpa [App.trackChild] using hroute
    refine hs.shown surface route hroute' ?_
    obtain hcached' | hnew := hkept route hroute'
    · exact hcached'
    · cases buffer with
      | new b => exact absurd rfl (hnew b)
      | removed => exact absurd rfl hremoved
      | none => exact hcached

/-- The loop over the children leaves windows, popups and buffers alone. -/
theorem Seen.repaintMovedChildSurfaces {first : Bool} (hs : Seen roots app painted)
    (h : app.repaintMovedChildSurfaces env id first = .ok app') : Seen roots app' painted := by
  obtain ⟨-, rfl⟩ | ⟨window, m, -, -, rfl⟩ := repaintMovedChildSurfaces_eq h
  · exact hs
  · exact hs.of_sub (fun _ _ h => h) (fun _ _ h => h) (fun _ _ h => h) (fun _ _ _ h => .inl h)
      fun _ _ _ h => h

theorem sentTile_root (hroot : app.surfaceToWindow.get? surface = some id) (key : ObjectId) :
    app.sentTile { env, event := .commit surface buffer damageCount } key =
      (app.rootPainted env surface buffer damageCount id).bind fun mid =>
        mid.movedTile env id key := by
  simp only [sentTile, hroot]

theorem sentTile_child (hroot : app.surfaceToWindow.get? surface = none)
    (hoffset : app.surfaceWindowOffset env surface = some (id, x, y)) (key : ObjectId) :
    app.sentTile { env, event := .commit surface buffer damageCount } key =
      if key = surface then
        tileOf (app.copyCommittedShmBuffer env surface buffer damageCount id x y).2
      else none := by
  simp only [sentTile, hroot, hoffset, Option.bind_some]

theorem sentTile_childTile (hroot : app.surfaceToWindow.get? surface = none)
    (hoffset : app.surfaceWindowOffset env surface = some (id, x, y))
    (hcopied : (app.copyCommittedShmBuffer env surface buffer damageCount id x y).2 = .ok (some tile))
    (key : ObjectId) : app.sentTile { env, event := .commit surface buffer damageCount } key =
      if key = surface then some tile else none := by
  rw [sentTile_child hroot hoffset, hcopied]
  rfl

theorem sentTile_dropped (hoffset : app.surfaceWindowOffset env surface = none) (key : ObjectId) :
    app.sentTile { env, event := .commit surface buffer damageCount } key = none := by
  have hroot : app.surfaceToWindow.get? surface = none := by
    refine Option.eq_none_iff_forall_ne_some.2 fun i hi => ?_
    rw [surfaceWindowOffset_root hi] at hoffset
    cases hoffset
  simp [sentTile, hroot, hoffset]

theorem sentTile_rootError {e : CopyError} (hroot : app.surfaceToWindow.get? surface = some id)
    (hcopied : (app.copyCommittedShmBuffer env surface buffer damageCount id 0 0).2 = .error e)
    (key : ObjectId) :
    app.sentTile { env, event := .commit surface buffer damageCount } key = none := by
  simp [sentTile_root hroot, rootPainted, hcopied]

theorem sentTile_childNone (hroot : app.surfaceToWindow.get? surface = none)
    (hoffset : app.surfaceWindowOffset env surface = some (id, x, y))
    (hcopied : tileOf (app.copyCommittedShmBuffer env surface buffer damageCount id x y).2 = none)
    (key : ObjectId) :
    app.sentTile { env, event := .commit surface buffer damageCount } key = none := by
  rw [sentTile_child hroot hoffset, hcopied, ite_self]

theorem sentTile_childRemoved (hroot : app.surfaceToWindow.get? surface = none)
    (hoffset : app.surfaceWindowOffset env surface = some (id, x, y)) (key : ObjectId) :
    app.sentTile { env, event := .commit surface .removed damageCount } key = none := by
  rw [sentTile_child hroot hoffset]
  exact ite_self _

theorem Seen.rootCommitted (hs : Seen roots app painted) (hroles : RolesKept roots app)
    (hroot : app.surfaceToWindow.get? surface = some id)
    (hkept : app.HitKept { env, event := .commit surface buffer damageCount })
    (hmid : app.rootPainted env surface buffer damageCount id = some mid) {first : Bool}
    (h : mid.repaintMovedChildSurfaces env id first = .ok app') :
    Seen roots app' fun key =>
      (app.sentTile { env, event := .commit surface buffer damageCount } key).or (painted key) := by
  simp only [sentTile_root hroot, hmid, Option.bind_some]
  exact (hs.rootPainted hroles hroot hmid fun size newSize hsize hnew =>
    hkept.2 id mid size newSize hroot hmid hsize hnew).repaintMovedChildSurfaces h

theorem Seen.committed (hs : Seen roots app painted) (hroles : RolesKept roots app)
    (hkept : app.HitKept { env, event := .commit surface buffer damageCount })
    (h : Committed app env surface buffer damageCount app') :
    Seen roots app' fun key =>
      (app.sentTile { env, event := .commit surface buffer damageCount } key).or (painted key) := by
  -- where nothing is sent, the last tiles are those of before
  have hsilent (hnone : ∀ key, app.sentTile { env, event := .commit surface buffer damageCount } key =
      none) : (fun key => (app.sentTile { env, event := .commit surface buffer damageCount } key).or
        (painted key)) = painted := by
    funext key
    rw [hnone key, Option.none_or]
  cases h with
  | dropped hoffset =>
    rw [hsilent (sentTile_dropped hoffset)]
    exact hs
  | rootTile hroot hcopied hcommit =>
    rw [commitRoot_eq] at hcommit
    exact hs.rootCommitted hroles hroot hkept (by simp only [App.rootPainted, hcopied]) hcommit
  | rootNone hroot hcopied hrepaint =>
    exact hs.rootCommitted hroles hroot hkept (by simp only [App.rootPainted, hcopied]) hrepaint
  | rootError hroot hcopied =>
    rw [hsilent (sentTile_rootError hroot hcopied)]
    have hnone := hroles.popups surface (hroles.toplevels surface _ hroot)
    refine hs.of_sub (fun key route hroute => by simpa using hroute)
      (fun key _ hkey => by simpa using hkey) (fun key child hchild => by simpa using hchild)
      (fun i root size hface => .inl (by simpa [face] using hface)) fun key route hroute hcached => ?_
    have hne : surface ≠ key := by
      rintro rfl
      rw [popupRoutes_cacheBuffer, hnone] at hroute
      cases hroute
    rwa [Table.contains, get?_cacheBuffer app buffer hne] at hcached
  | childTile hroot hoffset hcopied hcommit =>
    simp only [sentTile_childTile hroot hoffset hcopied]
    refine hs.childTile hroot hoffset hcopied hcommit fun route hroute => ?_
    have hown := hkept.1 route hroute
    rwa [sentTile_childTile hroot hoffset hcopied, if_pos rfl] at hown
  | childNone hroot hoffset hcopied hremoved =>
    have hnone := sentTile_childNone hroot hoffset hcopied
    rw [hsilent hnone]
    refine hs.childNone hremoved fun route hroute => ?_
    have hown := hkept.1 route hroute
    rwa [hnone surface] at hown
  | childRemoved hroot hoffset hremoved hrepaint =>
    subst hremoved
    rw [hsilent (sentTile_childRemoved hroot hoffset)]
    rw [forgotten_trackChild] at hrepaint
    rw [repaintWindowFromCachedBuffer_eq hrepaint]
    exact (hs.forgotten surface).enqueueTiles _

end Commit

/-! ## What is sent -/

theorem not_commit {call : Call} {event event' : Event} (h : call.event = event ∨ call.event = event')
    (hevent : ∀ surface buffer damageCount, event ≠ .commit surface buffer damageCount)
    (hevent' : ∀ surface buffer damageCount, event' ≠ .commit surface buffer damageCount)
    (surface : ObjectId) (buffer : CommitBuffer) (damageCount : Nat) :
    call.event ≠ .commit surface buffer damageCount := by
  obtain h | h := h
  · rw [h]
    exact hevent surface buffer damageCount
  · rw [h]
    exact hevent' surface buffer damageCount

theorem sentTile_of_ne_commit {call : Call}
    (h : ∀ surface buffer damageCount, call.event ≠ .commit surface buffer damageCount)
    (key : ObjectId) : app.sentTile call key = none := by
  unfold sentTile
  split
  · rename_i hevent
    exact absurd hevent (h _ _ _)
  · rfl

/-- The tiles that are queued are those of the children, and windows' own. -/
def Sends (env : Env) (sent : ObjectId → Option FrameTile) (app app' : App) : Prop :=
  ∃ msgs, app'.tx = app.tx ++ msgs ∧ (∀ key tile, sent key = some tile → .frameTile tile ∈ msgs) ∧
    ∀ tile, .frameTile tile ∈ msgs → (∃ key, sent key = some tile) ∨
      ∃ buffer, copyShmBuffer (env.shm buffer) tile.id 0 0 = .ok (some tile)

section Sends

variable {sent : ObjectId → Option FrameTile} {mid : App}

/-- The children are sent last. -/
theorem Sends.after (h : Sends env sent mid app') (hfirst : Sends env (fun _ => none) app mid) :
    Sends env sent app app' := by
  obtain ⟨msgs, htx, hsent, honly⟩ := h
  obtain ⟨msgs', htx', -, honly'⟩ := hfirst
  refine ⟨msgs' ++ msgs, by rw [htx, htx', List.append_assoc], fun key tile htile => ?_,
    fun tile htile => ?_⟩
  · exact List.mem_append_right _ (hsent key tile htile)
  · obtain htile | htile := List.mem_append.1 htile
    · obtain ⟨key, hkey⟩ | hwindow := honly' tile htile
      · cases hkey
      · exact .inr hwindow
    · exact honly tile htile

theorem sends_none {msgs : List Message} (htx : app'.tx = app.tx ++ msgs)
    (h : ∀ tile, .frameTile tile ∈ msgs →
      ∃ buffer, copyShmBuffer (env.shm buffer) tile.id 0 0 = .ok (some tile)) :
    Sends env (fun _ => none) app app' :=
  ⟨msgs, htx, fun _ _ hsent => (nomatch hsent), fun tile htile => .inr (h tile htile)⟩

theorem sends_nothing (htx : app'.tx = app.tx) : Sends env (fun _ => none) app app' :=
  ⟨[], by rw [htx, List.append_nil], fun _ _ hsent => (nomatch hsent), fun _ hmem => (nomatch hmem)⟩

theorem SameScene.sends (h : SameScene app app') : Sends env (fun _ => none) app app' := by
  obtain ⟨msgs, htx, hplain⟩ := h.tx
  refine sends_none htx fun tile hmem => ?_
  have hfalse := hplain _ hmem
  cases hfalse

theorem sends_enqueueMessage (app : App) {msg : Message} (h : ∀ tile, msg ≠ .frameTile tile) :
    Sends env (fun _ => none) app (app.enqueueMessage msg) :=
  sends_none rfl fun tile hmem => absurd (List.mem_singleton.1 hmem).symm (h tile)

theorem sends_enqueueTiles (app : App) {tiles : List FrameTile}
    (hsent : ∀ key tile, sent key = some tile → tile ∈ tiles)
    (honly : ∀ tile ∈ tiles, (∃ key, sent key = some tile) ∨
      ∃ buffer, copyShmBuffer (env.shm buffer) tile.id 0 0 = .ok (some tile)) :
    Sends env sent app (app.enqueueTiles tiles) := by
  refine ⟨tiles.map .frameTile, rfl, fun key tile htile => ?_, fun tile hmem => ?_⟩
  · exact List.mem_map_of_mem (hsent key tile htile)
  · obtain ⟨tile', htile', heq⟩ := List.mem_map.1 hmem
    cases heq
    exact honly tile htile'

theorem copy_of_cachedTile (h : app.cachedTile env id = some tile) :
    ∃ buffer, copyShmBuffer (env.shm buffer) tile.id 0 0 = .ok (some tile) := by
  obtain ⟨window, buffer, -, -, hcopy⟩ := cachedTile_eq_some.1 h
  exact ⟨buffer, by rw [tile_id_of_copy hcopy]; exact hcopy⟩

theorem sends_cachedTile (app : App) (id : UInt64) :
    Sends env (fun _ => none) app (app.enqueueTiles (app.cachedTile env id).toList) := by
  refine sends_none rfl fun tile hmem => ?_
  obtain ⟨tile', htile', heq⟩ := List.mem_map.1 hmem
  cases heq
  exact copy_of_cachedTile (Option.mem_toList.1 htile')

/-- The loop over the children sends those that it finds moved. -/
theorem sends_repaintMovedChildSurfaces {first : Bool}
    (h : app.repaintMovedChildSurfaces env id first = .ok app') :
    Sends env (fun key => app.movedTile env id key) app app' := by
  obtain ⟨hnone, rfl⟩ | ⟨window, m, hwindow, hm, rfl⟩ := repaintMovedChildSurfaces_eq h
  · refine ⟨[], (List.append_nil _).symm, fun key tile htile => ?_, fun _ hmem => (nomatch hmem)⟩
    obtain ⟨_, _, _, window, _, -, -, hwindow, -⟩ := childTile_eq_some.1 (movedTile_eq_some.1 htile).1
    rw [hnone] at hwindow
    cases hwindow
  · refine (sends_enqueueTiles _ (fun key tile htile => ?_) fun tile hmem => ?_).after
      (sends_nothing rfl)
    · obtain ⟨hchild, hmoves⟩ := movedTile_eq_some.1 htile
      exact List.mem_append_right _ (hmoves.mem_changedTiles hwindow hm hchild)
    · obtain hmem | hmem := List.mem_append.1 hmem
      · split at hmem
        · exact .inr (copy_of_cachedTile (Option.mem_toList.1 hmem))
        · cases hmem
      · obtain ⟨key, hchild, hmoves⟩ := moves_of_changedTiles hwindow hm tile hmem
        exact .inl ⟨key, movedTile_eq_some.2 ⟨hchild, hmoves⟩⟩

/-- The configuration, and the root's own tile. -/
theorem sends_paintedRoot (app : App) (surface : ObjectId)
    (h : ∃ buffer, copyShmBuffer (env.shm buffer) tile.id 0 0 = .ok (some tile)) :
    Sends env (fun _ => none) app (app.paintedRoot surface id tile) := by
  have htile (mid : App) : Sends env (fun _ => none) mid (mid.enqueueMessage (.frameTile tile)) := by
    refine sends_none rfl fun tile' hmem => ?_
    cases List.mem_singleton.1 hmem
    exact h
  have hwindows : (app.updatePopupSize surface tile.w tile.h).windows = app.windows := rfl
  simp only [paintedRoot, resizeRootWindow, hwindows]
  cases app.windows.get? id with
  | none => exact (htile _).after (sends_nothing rfl)
  | some window =>
    by_cases hsize : window.size = nonzeroSize (tile.w, tile.h)
    · simp only [hsize, if_true]
      exact (htile _).after (sends_nothing rfl)
    · simp only [hsize, if_false]
      exact (htile _).after ((sends_enqueueMessage _ fun _ => Message.noConfusion).after
        (sends_nothing rfl))

/-- The tiles that a commit queues are those of `sentTile`, and windows' own. -/
theorem sends_committed {buffer : CommitBuffer} {damageCount : Nat}
    (h : Committed app env surface buffer damageCount app') :
    Sends env (app.sentTile { env, event := .commit surface buffer damageCount }) app app' := by
  have hsilent (hnone : ∀ key, app.sentTile { env, event := .commit surface buffer damageCount } key =
      none) : app.sentTile { env, event := .commit surface buffer damageCount } = fun _ => none :=
    funext hnone
  have hcache : Sends env (fun _ => none) app (app.cacheBuffer surface buffer) :=
    sends_nothing (by simp)
  cases h with
  | dropped hoffset =>
    rw [hsilent (sentTile_dropped hoffset)]
    exact sends_nothing rfl
  | @rootTile windowId tile _ hroot hcopied hcommit =>
    obtain ⟨cached, -, hcopy⟩ := copyCommittedShmBuffer_copy hcopied
    have hisRoot : app.isRootSurfaceForWindow surface windowId = true := by
      simp [isRootSurfaceForWindow, hroot]
    rw [hisRoot, if_pos rfl] at hcopy
    have hsent : app.sentTile { env, event := .commit surface buffer damageCount } = fun key =>
        ((app.cacheBuffer surface buffer).paintedRoot surface windowId tile).movedTile env windowId
          key := by
      funext key
      simp only [sentTile_root hroot, rootPainted, hcopied, Option.bind_some]
    rw [hsent]
    rw [commitRoot_eq] at hcommit
    exact ((sends_repaintMovedChildSurfaces hcommit).after (sends_paintedRoot _ surface
      ⟨cached, by rw [tile_id_of_copy hcopy]; exact hcopy⟩)).after hcache
  | @rootNone windowId _ hroot hcopied hrepaint =>
    have hsent : app.sentTile { env, event := .commit surface buffer damageCount } = fun key =>
        (app.cacheBuffer surface buffer).movedTile env windowId key := by
      funext key
      simp only [sentTile_root hroot, rootPainted, hcopied, Option.bind_some]
    rw [hsent]
    exact (sends_repaintMovedChildSurfaces hrepaint).after hcache
  | rootError hroot hcopied =>
    rw [hsilent (sentTile_rootError hroot hcopied)]
    exact hcache
  | childTile hroot hoffset hcopied hcommit =>
    rw [funext (sentTile_childTile hroot hoffset hcopied), commitChild_eq hcommit]
    refine (sends_enqueueTiles _ (fun key t ht => ?_) fun t hmem => ?_).after (sends_nothing ?_)
    · split at ht
      · cases ht
        simp
      · cases ht
    · obtain hmem | hmem := List.mem_append.1 hmem
      · split at hmem
        · exact .inr (copy_of_cachedTile (Option.mem_toList.1 hmem))
        · cases hmem
      · rw [List.mem_singleton.1 hmem]
        exact .inl ⟨surface, if_pos rfl⟩
    · simp [updatePopupSize, App.trackChild]
  | childNone hroot hoffset hcopied hremoved =>
    rw [hsilent (sentTile_childNone hroot hoffset hcopied)]
    exact sends_nothing (by simp [App.trackChild])
  | childRemoved hroot hoffset hremoved hrepaint =>
    subst hremoved
    rw [hsilent (sentTile_childRemoved hroot hoffset)]
    rw [forgotten_trackChild] at hrepaint
    rw [repaintWindowFromCachedBuffer_eq hrepaint]
    exact (sends_cachedTile _ _).after (sends_nothing (forgotten_frame app surface).1)

/-- **The tiles that a callback queues are those of `sentTile`, and windows' own.** -/
theorem step_sends {call : Call} (h : app.step call = .ok app') :
    Sends call.env (app.sentTile call) app app' := by
  have hsilent (hevent : ∀ surface buffer damageCount,
      call.event ≠ .commit surface buffer damageCount) : app.sentTile call = fun _ => none :=
    funext (sentTile_of_ne_commit hevent)
  cases step_scene h with
  | same hevent hscene =>
    rw [hsilent hevent]
    exact hscene.sends
  | @created surface title appId hevent =>
    rw [hsilent fun _ _ _ => by rw [hevent]; exact Event.noConfusion]
    obtain ⟨focused, hscene, heq⟩ := newToplevel_eq app surface title appId
    rw [heq]
    exact (sends_enqueueMessage focused fun _ => Message.noConfusion).after hscene.sends
  | closed hevent hroot =>
    rw [hsilent fun _ _ _ => by rw [hevent]; exact Event.noConfusion]
    obtain ⟨focused, hscene, heq⟩ := toplevelDestroyed_eq call.env hroot
    rw [heq]
    exact (sends_enqueueMessage focused fun _ => Message.noConfusion).after hscene.sends
  | routed hevent =>
    rw [hsilent (not_commit hevent (fun _ _ _ => Event.noConfusion) fun _ _ _ => Event.noConfusion)]
    exact sends_nothing (routePopup_frame app call.env _ _ _).1
  | committed hevent hcommit =>
    obtain ⟨env, event⟩ := call
    obtain rfl := hevent
    exact sends_committed hcommit
  | @forgot surface _ hevent hforget =>
    rw [hsilent (not_commit hevent (fun _ _ _ => Event.noConfusion) fun _ _ _ => Event.noConfusion)]
    rw [forgetSurface_eq hforget]
    refine Sends.after ?_ (sends_nothing (forgotten_frame app surface).1)
    split
    · exact sends_cachedTile _ _
    · exact sends_nothing (List.append_nil _)
  | released hevent =>
    rw [hsilent fun _ _ _ => by rw [hevent]; exact Event.noConfusion]
    exact sends_nothing rfl

end Sends

/-! ## Sessions -/

/-- **A callback of the kept kind leaves every popup where it is seen.** -/
theorem Seen.step (hs : Seen roots app painted) (hrolesApp : RolesKept roots app) {call : Call}
    (hroles : KeepsRoles roots call) (hkept : app.HitKept call) (h : app.step call = .ok app') :
    Seen roots app' fun key => (app.sentTile call key).or (painted key) := by
  have hsilent (hevent : ∀ surface buffer damageCount,
      call.event ≠ .commit surface buffer damageCount) :
      (fun key => (app.sentTile call key).or (painted key)) = painted := by
    funext key
    rw [sentTile_of_ne_commit hevent, Option.none_or]
  cases step_scene h with
  | same hevent hscene =>
    rw [hsilent hevent]
    exact hscene.seen hs
  | created hevent =>
    rw [hsilent fun _ _ _ => by rw [hevent]; exact Event.noConfusion]
    exact hs.created (hroles.toplevel _ _ _ hevent) _ _
  | closed hevent hroot =>
    rw [hsilent fun _ _ _ => by rw [hevent]; exact Event.noConfusion]
    exact hs.closed _ hroot
  | routed hevent =>
    obtain ⟨env, event⟩ := call
    obtain rfl | rfl := hevent
    · rw [hsilent fun _ _ _ => Event.noConfusion]
      exact hs.routed hkept
    · rw [hsilent fun _ _ _ => Event.noConfusion]
      exact hs.routed hkept
  | committed hevent hcommit =>
    obtain ⟨env, event⟩ := call
    obtain rfl := hevent
    exact hs.committed hrolesApp hkept hcommit
  | forgot hevent hforget =>
    rw [hsilent (not_commit hevent (fun _ _ _ => Event.noConfusion) fun _ _ _ => Event.noConfusion),
      forgetSurface_eq hforget]
    exact (hs.forgotten _).enqueueTiles _
  | released hevent =>
    rw [hsilent fun _ _ _ => by rw [hevent]; exact Event.noConfusion]
    exact hs.released _

theorem Seen.run {calls : List Call} (hs : Seen roots app painted) (hrolesApp : RolesKept roots app)
    (hroles : ∀ call ∈ calls, KeepsRoles roots call) (hkept : app.HitsKept calls)
    (h : app.run calls = .ok app') :
    Seen roots app' (app.paintedAfter painted calls) ∧ RolesKept roots app' := by
  induction calls generalizing app painted with
  | nil =>
    cases h
    exact ⟨hs, hrolesApp⟩
  | cons call calls ih =>
    obtain ⟨app₁, happ₁, h⟩ := bind_eq_ok.1 h
    have hrole := hroles call List.mem_cons_self
    simp only [paintedAfter, happ₁]
    exact ih (hs.step hrolesApp hrole hkept.1 happ₁) (hrolesApp.step hrole happ₁)
      (fun call' hcall' => hroles call' (List.mem_cons_of_mem _ hcall')) (hkept.2 app₁ happ₁) h

theorem seen_start (req : ViewRequest) (roots : Set ObjectId) :
    Seen roots (start req) fun _ => none := by
  refine ⟨fun _ _ h => ?_, fun _ _ h => ?_, fun _ _ h => ?_, fun _ _ _ h => ?_, fun _ _ _ h => ?_,
    fun _ _ h => ?_⟩
  all_goals cases h

/-- **The pointer is on the popup that is seen, in every session of which each callback keeps a popup
to be hit where it is painted.** -/
theorem pointer_on_painted (req : ViewRequest) (roots : Set ObjectId) (calls : List Call) (app : App)
    (hroles : ∀ call ∈ calls, KeepsRoles roots call) (hkept : (start req).HitsKept calls)
    (hrun : (start req).run calls = .ok app) :
    PointerHits app ((start req).paintedAfter (fun _ => none) calls) := by
  obtain ⟨hseen, hrolesApp⟩ := (seen_start req roots).run ⟨fun _ _ h => (nomatch h), fun _ _ => rfl⟩
    hroles hkept hrun
  exact hseen.pointerHits hrolesApp

/-- Buffer 8 is the bar and any other the dot, and there are no subsurfaces. -/
def barEnv : Env := { bareEnv with shm := fun buffer => some (if buffer = 8 then bar else dot) }

/-- A window with a bar, and another bar on a popup that begins at a column. -/
def barAt (column : Int32) : List Call :=
  [{ env := barEnv, event := .newToplevel 0 "" "" },
    { env := barEnv, event := .commit 0 (.new 8) 0 },
    { env := barEnv, event := .newPopup 1 (some 0)
        { getGeometry := ⟨column, 0, 2, 1⟩, getUnconstrainedGeometry := fun _ => ⟨column, 0, 2, 1⟩ } },
    { env := barEnv, event := .commit 1 (.new 8) 0 }]

theorem keepsRoles_barAt (column : Int32) (call : Call) (h : call ∈ barAt column) :
    KeepsRoles {0} call := by
  simp only [barAt, List.mem_cons, List.not_mem_nil, or_false] at h
  obtain rfl | rfl | rfl | rfl := h
  · exact keepsRoles_of (fun _ _ => rfl) rfl
  · exact keepsRoles_of (fun _ _ => rfl) trivial
  · exact keepsRoles_of (fun _ _ => rfl) Nat.one_ne_zero
  · exact keepsRoles_of (fun _ _ => rfl) trivial

theorem hitsKept_barAt : (start ⟨"vbox", 640, 480⟩).HitsKept (barAt 1) := by
  refine ⟨trivial, fun _ h => ?_⟩
  cases h
  refine ⟨⟨fun _ hroute => (nomatch hroute), fun _ _ _ _ _ _ _ _ _ _ hroute => (nomatch hroute)⟩,
    fun _ h => ?_⟩
  cases h
  refine ⟨fun hcached => (nomatch hcached), fun _ h => ?_⟩
  cases h
  refine ⟨⟨fun _ hroute => ?_, fun _ _ _ _ hroot => (nomatch hroot)⟩, fun _ _ => trivial⟩
  cases hroute
  exact ⟨by decide, by decide⟩

/-- The bar begins at the second pixel of the window, and is cut at its edge. -/
theorem pointer_on_second_pixel : ∃ app, (start ⟨"vbox", 640, 480⟩).run (barAt 1) = .ok app ∧
    PointerHits app ((start ⟨"vbox", 640, 480⟩).paintedAfter (fun _ => none) (barAt 1)) ∧
    app.pointerTargetAt 1 1 0 =
      .ok (some { surface := 1, originX := 1, originY := 0, x := 1, y := 0 }) := by
  refine ⟨_, rfl, ?_, rfl⟩
  exact pointer_on_painted ⟨"vbox", 640, 480⟩ {0} (barAt 1) _ (keepsRoles_barAt 1) hitsKept_barAt rfl

/-- The bar begins left of the window. Its second pixel is painted on the first one of the window,
where the pointer is on the window. -/
theorem pointer_misses_popup : ∃ app, (start ⟨"vbox", 640, 480⟩).run (barAt (-1)) = .ok app ∧
    (∀ call ∈ barAt (-1), KeepsRoles {0} call) ∧
    ¬ PointerHits app ((start ⟨"vbox", 640, 480⟩).paintedAfter (fun _ => none) (barAt (-1))) := by
  refine ⟨_, rfl, keepsRoles_barAt (-1), fun h => ?_⟩
  have hpopup := h.popup 1 _ 0 0 rfl ⟨by decide, by decide, by decide, by decide⟩ [] 1 [] _ rfl
    ⟨rfl, rfl, rfl, _, rfl, by decide, by decide, by decide, by decide⟩ (fun _ hk => (nomatch hk))
  cases hpopup

end App
end VBox.Compositor
