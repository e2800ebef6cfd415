import VBox.Lib.Table
import VBox.Clipboard.Bridge
import VBox.Session.Capture
import VBox.Session.RootCommit

/-!
# Session.Compositor

The compositor of a view session: its tables, the requests of the guest's applications and the
input of the host, as the callbacks of `crates/server/src/wayland_session/mod.rs` handle them.

What smithay knows about surfaces and buffers is the `Env` of a callback. A callback changes the
`App` and queues messages for the viewer in `tx`; it can only fail by a panic.
-/

namespace VBox.Compositor

/-- The id of a surface, and of the role object on it. -/
abbrev ObjectId := Nat

abbrev BufferId := Nat

abbrev Size := UInt32 × UInt32

/-! ## Sizes and modes -/

def defaultRestoreSize (outputSize : Size) : Size :=
  let outputSize := nonzeroSize outputSize
  let scale (n : UInt32) : UInt32 := UInt32.ofNat (min (max (n.toNat * 7 / 10) 1) n.toNat)
  nonzeroSize (scale outputSize.1, scale outputSize.2)

def restoreSizeForModeEntry (currentSize outputSize : Size) : Size :=
  let currentSize := nonzeroSize currentSize
  let outputSize := nonzeroSize outputSize
  if currentSize.1 ≤ 32 ∨ currentSize.2 ≤ 32 then defaultRestoreSize outputSize
  else (min currentSize.1 outputSize.1, min currentSize.2 outputSize.2)

inductive WindowMode where
  | normal
  | maximized (restoreSize : Size)
  | fullscreen (restoreSize : Size)
  deriving DecidableEq

namespace WindowMode

def isMaximized : WindowMode → Bool
  | .maximized _ => true
  | _ => false

def isFullscreen : WindowMode → Bool
  | .fullscreen _ => true
  | _ => false

def enterMaximized (mode : WindowMode) (restoreSize : Size) : WindowMode :=
  if mode.isMaximized then mode else .maximized (nonzeroSize restoreSize)

def enterFullscreen (mode : WindowMode) (restoreSize : Size) : WindowMode :=
  if mode.isFullscreen then mode else .fullscreen (nonzeroSize restoreSize)

def leaveMaximized : WindowMode → WindowMode × Option Size
  | .maximized restoreSize => (.normal, some (nonzeroSize restoreSize))
  | mode => (mode, none)

def leaveFullscreen : WindowMode → WindowMode × Option Size
  | .fullscreen restoreSize => (.normal, some (nonzeroSize restoreSize))
  | mode => (mode, none)

end WindowMode

/-! ## The tables -/

/-- The pending state of an `xdg_toplevel`. -/
structure ToplevelState where
  size : Option (Int32 × Int32)
  maximized : Bool
  fullscreen : Bool
  activated : Bool
  deriving DecidableEq

structure RemoteWindow where
  toplevel : ToplevelState
  surface : ObjectId
  size : Size
  mode : WindowMode
  /-- In nanoseconds. -/
  lastMoveRequestAt : Option Nat
  deriving DecidableEq

structure PopupRoute where
  windowId : UInt64
  surface : ObjectId
  x : Int32
  y : Int32
  width : UInt32
  height : UInt32
  deriving DecidableEq

/-- The offset of a child surface in its window, and the size of its tile. -/
abbrev ChildRect := Int32 × Int32 × UInt32 × UInt32

structure App where
  maxOutputSize : Size
  outputSize : Size
  windows : Table UInt64 RemoteWindow
  surfaceToWindow : Table ObjectId UInt64
  popupRoutes : Table ObjectId PopupRoute
  popupOrder : List ObjectId
  childSurfaceWindow : Table ObjectId UInt64
  childSurfaces : Table ObjectId ObjectId
  childSurfaceLastRect : Table ObjectId ChildRect
  nextWindowId : UInt64
  activeWindowId : Option UInt64
  currentBuffers : Table ObjectId BufferId
  tx : List Message

/-- What a callback sees besides the `App`. `ancestors` are the parents of a surface in the tree of
subsurfaces, the nearest first, and `location` is its place in its parent. Hash maps are walked in
the order of `windowOrder` and `surfaceOrder`. -/
structure Env where
  ancestors : ObjectId → List ObjectId
  ancestors_tail : ∀ surface parent rest, ancestors surface = parent :: rest →
    ancestors parent = rest
  location : ObjectId → Int32 × Int32
  shm : BufferId → Option ShmBuffer
  windowOrder : List UInt64
  surfaceOrder : List ObjectId
  now : Nat
  gtkWmRequestsEnabled : Bool

structure Geometry where
  x : Int32
  y : Int32
  w : Int32
  h : Int32
  deriving DecidableEq

/-- The rules for the place of a popup, as smithay evaluates them: in general, and inside a target
rectangle. -/
structure PositionerState where
  getGeometry : Geometry
  getUnconstrainedGeometry : Geometry → Geometry

inductive CommitBuffer where
  | new (buffer : BufferId)
  | removed
  | none
  deriving DecidableEq

/-- An `i32` nearest to `n`. -/
def clampI32 (n : Int) : Int32 := Int32.ofInt (max (-2 ^ 31) (min n (2 ^ 31 - 1)))

/-- `i32::saturating_add`. -/
def saturatingAddI32 (a b : Int32) : Int32 := clampI32 (a.toInt + b.toInt)

def saturatingNegI32 (a : Int32) : Int32 := clampI32 (-a.toInt)

def u32ToI32Saturating (n : UInt32) : Int32 := clampI32 n.toNat

def popupConstraintTarget (windowSize : Size) (parentX parentY : Int32) : Geometry :=
  { x := saturatingNegI32 parentX, y := saturatingNegI32 parentY,
    w := u32ToI32Saturating windowSize.1, h := u32ToI32Saturating windowSize.2 }

def popupGeometryForWindow (positioner : PositionerState) (windowSize : Option Size)
    (parentX parentY : Int32) : Geometry :=
  match windowSize with
  | some size => positioner.getUnconstrainedGeometry (popupConstraintTarget size parentX parentY)
  | none => positioner.getGeometry

def moveUnmaximizeSuppressGrace : Nat := 600 * 10 ^ 6

/-- The window was moved by its application a moment ago. -/
def RemoteWindow.inGrace (window : RemoteWindow) (now : Nat) : Bool :=
  match window.lastMoveRequestAt with
  | some at_ => now - at_ ≤ moveUnmaximizeSuppressGrace
  | none => false

def RemoteWindow.geom (window : RemoteWindow) : WindowGeometry :=
  { x := 0, y := 0, w := window.size.1, h := window.size.2 }

/-- `with_pending_state`, with a size to configure. -/
def RemoteWindow.configure (window : RemoteWindow) (size : Size) (maximized fullscreen : Bool) :
    RemoteWindow :=
  { window with
    toplevel :=
      { window.toplevel with
        size := some (size.1.toInt32, size.2.toInt32)
        maximized
        fullscreen } }

namespace App

/-- `App` at the start of a session. -/
def start (req : ViewRequest) : App :=
  let size := (max req.width 1, max req.height 1)
  { maxOutputSize := size, outputSize := size, windows := .empty, surfaceToWindow := .empty,
    popupRoutes := .empty, popupOrder := [], childSurfaceWindow := .empty, childSurfaces := .empty,
    childSurfaceLastRect := .empty, nextWindowId := 1, activeWindowId := none,
    currentBuffers := .empty, tx := [] }

def enqueueMessage (app : App) (msg : Message) : App := { app with tx := app.tx ++ [msg] }

/-! ## Popups and child surfaces -/

/-- The loop of `surface_window_offset`, from `current` up through its ancestors. -/
def offsetLoop (app : App) (env : Env) (current : ObjectId) (ancestors : List ObjectId)
    (x y : Int32) : Option (UInt64 × Int32 × Int32) :=
  match app.surfaceToWindow.get? current with
  | some id => some (id, x, y)
  | none =>
    match app.popupRoutes.get? current with
    | some route => some (route.windowId, saturatingAddI32 x route.x, saturatingAddI32 y route.y)
    | none =>
      let location := env.location current
      match ancestors with
      | [] => none
      | parent :: rest =>
        app.offsetLoop env parent rest (saturatingAddI32 x location.1) (saturatingAddI32 y location.2)

def surfaceWindowOffset (app : App) (env : Env) (surface : ObjectId) :
    Option (UInt64 × Int32 × Int32) :=
  app.offsetLoop env surface (env.ancestors surface) 0 0

def routePopup (app : App) (env : Env) (surface : ObjectId) (parent : Option ObjectId)
    (positioner : PositionerState) : App × Bool :=
  match parent with
  | none => (app, false)
  | some parent =>
    match app.surfaceWindowOffset env parent with
    | none => (app, false)
    | some (windowId, parentX, parentY) =>
      let windowSize := (app.windows.get? windowId).map (·.size)
      let geometry := popupGeometryForWindow positioner windowSize parentX parentY
      let route : PopupRoute :=
        { windowId, surface, x := saturatingAddI32 parentX geometry.x,
          y := saturatingAddI32 parentY geometry.y,
          width := nonnegative (max geometry.w 1), height := nonnegative (max geometry.h 1) }
      ({ app with
          popupRoutes := app.popupRoutes.insert surface route
          popupOrder := app.popupOrder.filter (· ≠ surface) ++ [surface] }, true)

def updatePopupSize (app : App) (surface : ObjectId) (width height : UInt32) : App :=
  { app with
    popupRoutes := app.popupRoutes.modify surface fun route =>
      { route with width := max width 1, height := max height 1 } }

def removePopupRouteForSurface (app : App) (key : ObjectId) : App × Option UInt64 :=
  match app.popupRoutes.get? key with
  | none => (app, none)
  | some route =>
    ({ app with
        popupRoutes := app.popupRoutes.remove key
        popupOrder := app.popupOrder.filter (· ≠ key) }, some route.windowId)

def clearChildSurfaceTracking (app : App) (key : ObjectId) : App :=
  { app with
    currentBuffers := app.currentBuffers.remove key
    childSurfaceWindow := app.childSurfaceWindow.remove key
    childSurfaces := app.childSurfaces.remove key
    childSurfaceLastRect := app.childSurfaceLastRect.remove key }

/-! ## Focus -/

def setToplevelActivation (app : App) (activeId : Option UInt64) : App :=
  { app with
    windows := app.windows.mapValues fun id window =>
      { window with
        toplevel := { window.toplevel with activated := decide (some id = activeId) } } }

def focusWindow (app : App) (id : UInt64) : App :=
  match app.windows.get? id with
  | none => app
  | some _ =>
    let changed := app.activeWindowId ≠ some id
    let app := { app with activeWindowId := some id }
    if changed then app.setToplevelActivation (some id) else app

def clearFocus (app : App) : App :=
  match app.activeWindowId with
  | none => app
  | some _ => { app with activeWindowId := none }.setToplevelActivation none

def clearWindowFocus (app : App) (id : UInt64) : App :=
  if app.activeWindowId = some id then app.clearFocus else app

/-! ## Sizes and modes of a window -/

def setOutputSize (app : App) (size : Size) : App := { app with outputSize := nonzeroSize size }

/-- A window with another value. -/
def setWindow (app : App) (id : UInt64) (window : RemoteWindow) : App :=
  { app with windows := app.windows.insert id window }

def requestWindowResize (app : App) (id : UInt64) (width height : UInt32) : App :=
  match app.windows.get? id with
  | none => app
  | some window =>
    let requestedSize := nonzeroSize (width, height)
    let wasMaximized := window.mode.isMaximized
    let wasFullscreen := window.mode.isFullscreen
    if window.size = requestedSize ∧ !wasMaximized ∧ !wasFullscreen then app
    else
      let app := app.setOutputSize requestedSize
      let app := app.setWindow id
        ({ window with mode := .normal }.configure requestedSize false false)
      if wasFullscreen then
        app.enqueueMessage (.windowEvent (.fullscreenChanged id false))
      else app

def requestWindowMaximizeById (app : App) (id : UInt64) : App :=
  let target := nonzeroSize app.maxOutputSize
  match app.windows.get? id with
  | none => app
  | some window =>
    if window.mode.isMaximized ∧ window.size = target then app
    else
      let restoreSize :=
        match window.mode with
        | .maximized restoreSize => restoreSize
        | _ => restoreSizeForModeEntry window.size app.maxOutputSize
      app.setWindow id
        ({ window with mode := window.mode.enterMaximized restoreSize }.configure target true false)

def requestWindowUnmaximizeById (app : App) (env : Env) (id : UInt64) (suppressRecentMove : Bool) :
    App :=
  match app.windows.get? id with
  | none => app
  | some window =>
    if suppressRecentMove ∧ window.inGrace env.now then
      app.setWindow id { window with lastMoveRequestAt := none }
    else
      match window.mode.leaveMaximized with
      | (_, none) => app
      | (mode, some target) =>
        -- the `Fullscreen` flag is left as it is
        app.setWindow id
          ({ window with mode }.configure target false window.toplevel.fullscreen)

def toggleWindowMaximize (app : App) (env : Env) (id : UInt64) : App :=
  match app.windows.get? id with
  | none => app
  | some window =>
    if window.mode.isMaximized then app.requestWindowUnmaximizeById env id false
    else app.requestWindowMaximizeById id

def requestWindowFullscreenById (app : App) (id : UInt64) : App :=
  let target := nonzeroSize app.maxOutputSize
  match app.windows.get? id with
  | none => app
  | some window =>
    let restoreSize :=
      match window.mode with
      | .fullscreen restoreSize => restoreSize
      | _ => restoreSizeForModeEntry window.size app.maxOutputSize
    let alreadyAligned := window.mode.isFullscreen ∧ window.size = target
    let app :=
      if alreadyAligned then app
      else
        app.setWindow id
          ({ window with mode := window.mode.enterFullscreen restoreSize }.configure target false
            true)
    app.enqueueMessage (.windowEvent (.fullscreenChanged id true))

def requestWindowUnfullscreenById (app : App) (env : Env) (id : UInt64)
    (suppressRecentMove : Bool) : App :=
  match app.windows.get? id with
  | none => app
  | some window =>
    if suppressRecentMove ∧ window.inGrace env.now then
      app.setWindow id { window with lastMoveRequestAt := none }
    else
      let app :=
        match window.mode.leaveFullscreen with
        | (_, none) => app
        | (mode, some target) =>
          -- the `Maximized` flag is left as it is
          app.setWindow id
            ({ window with mode }.configure target window.toplevel.maximized false)
      app.enqueueMessage (.windowEvent (.fullscreenChanged id false))

def setWindowFullscreen (app : App) (env : Env) (id : UInt64) (fullscreen : Bool) : App :=
  if fullscreen then app.requestWindowFullscreenById id
  else app.requestWindowUnfullscreenById env id false

/-- The requests of a toplevel are handled for the window of its surface. -/
def forSurface (app : App) (surface : ObjectId) (request : UInt64 → App) : App :=
  match app.surfaceToWindow.get? surface with
  | none => app
  | some id => request id

def moveRequest (app : App) (env : Env) (surface : ObjectId) : App :=
  app.forSurface surface fun id =>
    let app := { app with
      windows := app.windows.modify id fun window =>
        { window with lastMoveRequestAt := some env.now } }
    app.enqueueMessage (.windowEvent (.moveRequested id))

def maximizeRequest (app : App) (env : Env) (surface : ObjectId) : App :=
  if !env.gtkWmRequestsEnabled then app
  else app.forSurface surface app.requestWindowMaximizeById

def unmaximizeRequest (app : App) (env : Env) (surface : ObjectId) : App :=
  if !env.gtkWmRequestsEnabled then app
  else app.forSurface surface fun id => app.requestWindowUnmaximizeById env id true

def fullscreenRequest (app : App) (surface : ObjectId) : App :=
  app.forSurface surface app.requestWindowFullscreenById

def unfullscreenRequest (app : App) (env : Env) (surface : ObjectId) : App :=
  app.forSurface surface fun id => app.requestWindowUnfullscreenById env id true

def minimizeRequest (app : App) (surface : ObjectId) : App :=
  app.forSurface surface fun id => app.enqueueMessage (.windowEvent (.minimized id))

def titleChanged (app : App) (surface : ObjectId) (title : String) : App :=
  app.forSurface surface fun id => app.enqueueMessage (.windowEvent (.titleChanged id title))

/-- `handle_input_event`, less what goes to the guest's applications. -/
def handleInputEvent (app : App) (env : Env) : InputEvent → Except Fault App
  | .pointerMotion _ _ _ => .ok app
  | .pointerButton id _ _ => .ok (app.focusWindow id)
  | .pointerScroll id _ _ => .ok (app.focusWindow id)
  | .key id keycode _ =>
    -- `keycode + 8`
    if keycode.toNat + 8 < 2 ^ 32 then .ok (app.focusWindow id) else .error .overflow
  | .text id _ => .ok (app.focusWindow id)
  | .focus id focused => .ok (if focused then app.focusWindow id else app.clearWindowFocus id)
  | .resize id width height => .ok (app.requestWindowResize id width height)
  | .toggleMaximize id => .ok (app.toggleWindowMaximize env id)
  | .setFullscreen id fullscreen => .ok (app.setWindowFullscreen env id fullscreen)
  | .close _ => .ok app
  | .preedit id _ _ _ => .ok (app.focusWindow id)

/-! ## Tiles -/

def isRootSurfaceForWindow (app : App) (surface : ObjectId) (id : UInt64) : Bool :=
  match app.surfaceToWindow.get? surface with
  | some windowId => windowId == id
  | none => false

def resizeRootWindow (app : App) (id : UInt64) (width height : UInt32) :
    App × Option WindowGeometry :=
  match app.windows.get? id with
  | none => (app, none)
  | some window =>
    let newSize := nonzeroSize (width, height)
    if window.size = newSize then (app, none)
    else
      let window := { window with size := newSize }
      (app.setWindow id window, some window.geom)

/-- The result of a copy where an error is logged and only a panic goes further. -/
def logged : Except CopyError (Option FrameTile) → Except Fault (Option FrameTile)
  | .ok tile => .ok tile
  | .error (.panicked fault) => .error fault
  | .error _ => .ok none

def repaintWindowFromCachedBuffer (app : App) (env : Env) (windowId : UInt64) :
    Except Fault App :=
  match app.windows.get? windowId with
  | none => .ok app
  | some window =>
    match app.currentBuffers.get? window.surface with
    | none => .ok app
    | some buffer => do
      match ← logged (copyShmBuffer (env.shm buffer) windowId 0 0) with
      | some tile => return app.enqueueMessage (.frameTile tile)
      | none => return app

/-- The variables of the loop in `repaint_moved_child_surfaces`. -/
structure Moved where
  lastRect : Table ObjectId ChildRect
  changedTiles : List FrameTile
  parentRepaintNeeded : Bool

/-- A new rectangle for a child that had another one. -/
def Moved.move (m : Moved) (key : ObjectId) (newRect : ChildRect) (tile : Option FrameTile) :
    Moved :=
  match m.lastRect.get? key with
  | none => m
  | some prev =>
    if prev = newRect then m
    else
      { lastRect := m.lastRect.insert key newRect, changedTiles := m.changedTiles ++ tile.toList,
        parentRepaintNeeded := true }

/-- The body of that loop, for the key of a child and its surface. -/
def repaintMovedChild (app : App) (env : Env) (windowId : UInt64) (bounds : SurfaceBounds)
    (m : Moved) (child : ObjectId × ObjectId) : Except Fault Moved :=
  let (key, surface) := child
  match app.surfaceWindowOffset env surface with
  | none => .ok m
  | some (resolvedWindowId, offsetX, offsetY) =>
    if resolvedWindowId ≠ windowId then .ok m
    else
      match app.currentBuffers.get? key with
      | none => .ok { m with lastRect := m.lastRect.remove key }
      | some buffer =>
        match copyShmBufferClipped (env.shm buffer) windowId offsetX offsetY bounds with
        | .ok (some tile) => .ok (m.move key (offsetX, offsetY, tile.w, tile.h) (some tile))
        | .ok none => .ok (m.move key (offsetX, offsetY, 0, 0) none)
        | .error (.panicked fault) => .error fault
        | .error _ => .ok m

/-- The child surfaces of a window, in the order of the hash map. -/
def candidates (app : App) (env : Env) (windowId : UInt64) : List (ObjectId × ObjectId) :=
  env.surfaceOrder.filterMap fun key =>
    if app.childSurfaceWindow.get? key = some windowId then
      (app.childSurfaces.get? key).map fun surface => (key, surface)
    else none

def repaintMovedChildSurfaces (app : App) (env : Env) (windowId : UInt64)
    (repaintParentFirst : Bool) : Except Fault App :=
  match app.windows.get? windowId with
  | none => .ok app
  | some window => do
    let bounds : SurfaceBounds := { width := window.size.1, height := window.size.2 }
    let m ← (app.candidates env windowId).foldlM (app.repaintMovedChild env windowId bounds)
      { lastRect := app.childSurfaceLastRect, changedTiles := [], parentRepaintNeeded := false }
    let app := { app with childSurfaceLastRect := m.lastRect }
    let app ←
      if m.parentRepaintNeeded ∧ repaintParentFirst then
        app.repaintWindowFromCachedBuffer env windowId
      else .ok app
    return m.changedTiles.foldl (fun app tile => app.enqueueMessage (.frameTile tile)) app

/-- The buffer to show is remembered before anything is known about its contents. -/
def copyCommittedShmBuffer (app : App) (env : Env) (surface : ObjectId) (commit : CommitBuffer)
    (damageCount : Nat) (id : UInt64) (offsetX offsetY : Int32) :
    App × Except CopyError (Option FrameTile) :=
  let copy (app : App) (buffer : BufferId) : Except CopyError (Option FrameTile) :=
    let bounds : Option SurfaceBounds :=
      if app.isRootSurfaceForWindow surface id then none
      else (app.windows.get? id).map fun window =>
        { width := window.size.1, height := window.size.2 }
    match bounds with
    | some bounds => copyShmBufferClipped (env.shm buffer) id offsetX offsetY bounds
    | none => copyShmBuffer (env.shm buffer) id offsetX offsetY
  match commit with
  | .new buffer =>
    let app := { app with currentBuffers := app.currentBuffers.insert surface buffer }
    (app, copy app buffer)
  | .removed => ({ app with currentBuffers := app.currentBuffers.remove surface }, .ok none)
  | .none =>
    if 0 < damageCount then
      match app.currentBuffers.get? surface with
      | some buffer => (app, copy app buffer)
      | none => (app, .ok none)
    else (app, .ok none)

/-! ## The callbacks of the compositor and the shell -/

/-- There is a record of the child surface, and it has another rectangle. -/
def geomChanged (app : App) (surface : ObjectId) (newRect : ChildRect) : Bool :=
  match app.childSurfaceLastRect.get? surface with
  | some prev => prev ≠ newRect
  | none => false

/-- The new record of a child surface, and the parent's tile when the child has moved. -/
def recordChildRect (app : App) (env : Env) (surface : ObjectId) (windowId : UInt64)
    (newRect : ChildRect) : Except Fault App :=
  let changed := app.geomChanged surface newRect
  let app := { app with childSurfaceLastRect := app.childSurfaceLastRect.insert surface newRect }
  if changed then app.repaintWindowFromCachedBuffer env windowId else .ok app

/-- The tile of a child surface. -/
def commitChild (app : App) (env : Env) (surface : ObjectId) (windowId : UInt64)
    (offsetX offsetY : Int32) (tile : FrameTile) : Except Fault App := do
  let app := app.updatePopupSize surface tile.w tile.h
  let app ← app.recordChildRect env surface windowId (offsetX, offsetY, tile.w, tile.h)
  return app.enqueueMessage (.frameTile tile)

/-- The tile of a root surface: the new geometry, if it changed, and then the tile. -/
def commitRoot (app : App) (env : Env) (surface : ObjectId) (windowId : UInt64) (tile : FrameTile) :
    Except Fault App :=
  let app := app.updatePopupSize surface tile.w tile.h
  let (app, configuredGeom) := app.resizeRootWindow windowId tile.w tile.h
  let app :=
    match configuredGeom with
    | some geom => app.enqueueMessage (.windowEvent (.configured windowId geom))
    | none => app
  let app := app.enqueueMessage (.frameTile tile)
  app.repaintMovedChildSurfaces env windowId false

def commit (app : App) (env : Env) (surface : ObjectId) (buffer : CommitBuffer)
    (damageCount : Nat) : Except Fault App :=
  match app.surfaceWindowOffset env surface with
  -- no window: the commit is drained and dropped
  | none => .ok app
  | some (windowId, offsetX, offsetY) =>
    if offsetX = 0 ∧ offsetY = 0 ∧ app.isRootSurfaceForWindow surface windowId then
      let (app, copied) :=
        app.copyCommittedShmBuffer env surface buffer damageCount windowId offsetX offsetY
      match copied with
      | .ok (some tile) => app.commitRoot env surface windowId tile
      | .ok none => app.repaintMovedChildSurfaces env windowId true
      | .error (.panicked fault) => .error fault
      | .error _ => .ok app
    else do
      let app :=
        { app with
          childSurfaceWindow := app.childSurfaceWindow.insert surface windowId
          childSurfaces := app.childSurfaces.insert surface surface }
      let (app, copied) :=
        app.copyCommittedShmBuffer env surface buffer damageCount windowId offsetX offsetY
      let app ←
        match copied with
        | .ok (some tile) => app.commitChild env surface windowId offsetX offsetY tile
        | .ok none => .ok app
        | .error (.panicked fault) => .error fault
        | .error _ => .ok app
      if buffer = .removed then
        let app := (app.removePopupRouteForSurface surface).1.clearChildSurfaceTracking surface
        app.repaintWindowFromCachedBuffer env windowId
      else return app

/-- Drop everything that is known of a surface, and show the parent of a popup without it. -/
def forgetSurface (app : App) (env : Env) (key : ObjectId) : Except Fault App :=
  let (app, parentWindowId) := app.removePopupRouteForSurface key
  let app := app.clearChildSurfaceTracking key
  match parentWindowId with
  | some windowId => app.repaintWindowFromCachedBuffer env windowId
  | none => .ok app

/-- The end of a `wl_surface`. -/
def destroyed (app : App) (env : Env) (surface : ObjectId) : Except Fault App :=
  app.forgetSurface env surface

def popupDestroyed (app : App) (env : Env) (surface : ObjectId) : Except Fault App :=
  app.forgetSurface env surface

def bufferDestroyed (app : App) (buffer : BufferId) : App :=
  { app with currentBuffers := app.currentBuffers.retain fun _ cached => cached ≠ buffer }

def newToplevel (app : App) (surface : ObjectId) (title appId : String) : App :=
  let id := app.nextWindowId
  let window : RemoteWindow :=
    { toplevel := { size := some (0, 0), maximized := false, fullscreen := false, activated := false }
      surface, size := (1, 1), mode := .normal, lastMoveRequestAt := none }
  let app :=
    { app with
      nextWindowId := saturatingAdd app.nextWindowId 1
      surfaceToWindow := app.surfaceToWindow.insert surface id
      windows := app.windows.insert id window }
  let app := app.focusWindow id
  app.enqueueMessage (.windowEvent (.created id window.geom title appId))

def newPopup (app : App) (env : Env) (surface : ObjectId) (parent : Option ObjectId)
    (positioner : PositionerState) : App :=
  (app.routePopup env surface parent positioner).1

def repositionRequest (app : App) (env : Env) (surface : ObjectId) (parent : Option ObjectId)
    (positioner : PositionerState) : App :=
  (app.routePopup env surface parent positioner).1

/-- Drop a window and everything that belongs to it. -/
def removeWindow (app : App) (surface : ObjectId) (id : UInt64) : App :=
  let popupRoutes := app.popupRoutes.retain fun _ route => route.windowId ≠ id
  let childSurfaceWindow := app.childSurfaceWindow.retain fun _ windowId => windowId ≠ id
  { app with
    surfaceToWindow := app.surfaceToWindow.remove surface
    windows := app.windows.remove id
    currentBuffers := app.currentBuffers.remove surface
    popupRoutes
    popupOrder := app.popupOrder.filter popupRoutes.contains
    childSurfaceWindow
    childSurfaces := app.childSurfaces.retain fun key _ => childSurfaceWindow.contains key
    childSurfaceLastRect :=
      app.childSurfaceLastRect.retain fun key _ => childSurfaceWindow.contains key }

/-- Focus for the first window of the hash map, if there is one. -/
def focusNext (app : App) (env : Env) : App :=
  match env.windowOrder.find? app.windows.contains with
  | some nextId => app.focusWindow nextId
  | none => app.clearFocus

def toplevelDestroyed (app : App) (env : Env) (surface : ObjectId) : App :=
  match app.surfaceToWindow.get? surface with
  | none => app
  | some id =>
    let app := app.removeWindow surface id
    let app := if app.activeWindowId = some id then app.focusNext env else app
    app.enqueueMessage (.windowEvent (.destroyed id))

end App

/-! ## Runs -/

inductive Event where
  | newToplevel (surface : ObjectId) (title appId : String)
  | newPopup (surface : ObjectId) (parent : Option ObjectId) (positioner : PositionerState)
  | repositionRequest (surface : ObjectId) (parent : Option ObjectId) (positioner : PositionerState)
  | commit (surface : ObjectId) (buffer : CommitBuffer) (damageCount : Nat)
  | destroyed (surface : ObjectId)
  | toplevelDestroyed (surface : ObjectId)
  | popupDestroyed (surface : ObjectId)
  | bufferDestroyed (buffer : BufferId)
  | moveRequest (surface : ObjectId)
  | maximizeRequest (surface : ObjectId)
  | unmaximizeRequest (surface : ObjectId)
  | fullscreenRequest (surface : ObjectId)
  | unfullscreenRequest (surface : ObjectId)
  | minimizeRequest (surface : ObjectId)
  | titleChanged (surface : ObjectId) (title : String)
  | input (event : InputEvent)

/-- A callback, and what it finds when it is called. -/
structure Call where
  env : Env
  event : Event

namespace App

def step (app : App) (call : Call) : Except Fault App :=
  match call.event with
  | .newToplevel surface title appId => .ok (app.newToplevel surface title appId)
  | .newPopup surface parent positioner => .ok (app.newPopup call.env surface parent positioner)
  | .repositionRequest surface parent positioner =>
    .ok (app.repositionRequest call.env surface parent positioner)
  | .commit surface buffer damageCount => app.commit call.env surface buffer damageCount
  | .destroyed surface => app.destroyed call.env surface
  | .toplevelDestroyed surface => .ok (app.toplevelDestroyed call.env surface)
  | .popupDestroyed surface => app.popupDestroyed call.env surface
  | .bufferDestroyed buffer => .ok (app.bufferDestroyed buffer)
  | .moveRequest surface => .ok (app.moveRequest call.env surface)
  | .maximizeRequest surface => .ok (app.maximizeRequest call.env surface)
  | .unmaximizeRequest surface => .ok (app.unmaximizeRequest call.env surface)
  | .fullscreenRequest surface => .ok (app.fullscreenRequest surface)
  | .unfullscreenRequest surface => .ok (app.unfullscreenRequest call.env surface)
  | .minimizeRequest surface => .ok (app.minimizeRequest surface)
  | .titleChanged surface title => .ok (app.titleChanged surface title)
  | .input event => app.handleInputEvent call.env event

def run (app : App) (calls : List Call) : Except Fault App := calls.foldlM step app

end App
end VBox.Compositor
