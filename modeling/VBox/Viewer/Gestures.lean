import VBox.Viewer.Keyboard

/-!
# Viewer.Gestures

What the pointer does to a window of the host: the arms of `window_event` for the pointer and the one
for `MoveRequested`, with the methods they call (`crates/client/src/viewer/app.rs`,
`move_resize.rs`). The viewer takes a press of the left button for itself when it is on the titlebar
or on the border, or when Alt is held; all other presses go to the guest. The guest may ask for a move
at any time, and its request may come late.

What the source computes in floating point comes in with each event, as part of a `PointerEnv`.
-/

namespace VBox

open Compositor (Size)

/-! ## The pointer -/

inductive MouseButton where
  | left | right | middle | back | forward
  | other (n : UInt16)
  deriving DecidableEq

def mouseButtonCode (button : MouseButton) : Option UInt32 :=
  some (match button with
    | .left => 0x110
    | .right => 0x111
    | .middle => 0x112
    | .back => 0x116
    | .forward => 0x115
    | .other n => 0x110 + n.toUInt32)

def hostMoveModifierActive (modifiers : ModifiersState) : Bool :=
  modifiers.altKey && !shortcutModifiersActive modifiers

/-- A `PhysicalPosition<i32>`. -/
structure ScreenPosition where
  x : Int32
  y : Int32
  deriving DecidableEq

inductive ResizeDirection where
  | east | north | northEast | northWest | south | southEast | southWest | west
  deriving DecidableEq

structure ResizeDrag where
  direction : ResizeDirection
  startOuter : ScreenPosition
  startSize : Size
  deriving DecidableEq

/-- `P` is `PhysicalPosition<f64>`. -/
structure MoveDrag (P : Type) where
  startCursorWindow : P
  pressOuter : ScreenPosition
  deriving DecidableEq

inductive MoveState (P : Type) where
  | idle
  | pressed (drag : MoveDrag P)
  | released (drag : MoveDrag P) (since : Nat)
  | dragging (drag : MoveDrag P)
  deriving DecidableEq

def MoveState.isDragging {P : Type} : MoveState P → Bool
  | .dragging _ => true
  | _ => false

structure EdgeSnapRect where
  position : ScreenPosition
  size : Size
  deriving DecidableEq

structure TitlebarClick where
  since : Nat
  x : Int32
  y : Int32
  deriving DecidableEq

/-- `VBOX_EDGE_SNAP`, the host's chrome, and which of the two builds it is. -/
structure PointerConfig where
  macos : Bool
  hostChromeEnabled : Bool
  edgeSnapEnabled : Bool

/-- What the window answers while an event is handled, and what is computed in floating point. -/
structure PointerEnv (P : Type) where
  /-- milliseconds -/
  now : Nat
  modifiers : ModifiersState
  outerPosition : Option ScreenPosition
  /-- `outer_position` again, when the window is snapped: it may have been moved by then -/
  snapOuter : Option ScreenPosition
  innerSize : Size
  isMaximized : Bool
  frameWidth : UInt32
  mapCursorToFrame : P → Int32 × Int32
  /-- `resize_direction_at`, for the inner size -/
  resizeDirectionAt : P → Option ResizeDirection
  computeManualMoveOuter : ScreenPosition → P → P → ScreenPosition
  /-- the position of the window and the one in it, added up -/
  onScreen : ScreenPosition → P → P
  /-- `apply_resize_direction` and `clamp_manual_resize`, rounded -/
  resizedTo : ResizeDrag → ScreenPosition → P → EdgeSnapRect
  /-- `cursor_left_right_tile_rect` on the monitor that there is -/
  leftRightTile : P → ScreenPosition → Option EdgeSnapRect
  /-- `cursor_edge_tile_rect` -/
  edgeTile : P → ScreenPosition → Option EdgeSnapRect
  /-- the size to ask the host for, and the one to ask the guest for -/
  tileSizes : Size → Size × Size
  windowCenter : P

/-- What the window of the host is told. -/
inductive HostCall where
  | setOuterPosition (position : ScreenPosition)
  | requestInnerSize (size : Size)
  | setMaximized (maximized : Bool)
  deriving DecidableEq

/-- The fields of `ViewerWindow` for the pointer. -/
structure PointerView (P : Type) where
  lastWindowCursor : Option P
  lastScreenCursor : Option P
  lastCursor : Int32 × Int32
  hoverResizeDirection : Option ResizeDirection
  activeResize : Option ResizeDrag
  moveState : MoveState P
  pendingProgrammaticResize : Option Size
  pendingTileRemoteResize : Option Size
  lastTitlebarClick : Option TitlebarClick
  suppressNextLeftRelease : Bool
  /-- what the window was told -/
  calls : List HostCall

namespace PointerView

variable {P : Type}

def new : PointerView P :=
  { lastWindowCursor := none, lastScreenCursor := none, lastCursor := (0, 0),
    hoverResizeDirection := none, activeResize := none, moveState := .idle,
    pendingProgrammaticResize := none, pendingTileRemoteResize := none, lastTitlebarClick := none,
    suppressNextLeftRelease := false, calls := [] }

def tell (view : PointerView P) (call : HostCall) : PointerView P :=
  { view with calls := view.calls ++ [call] }

def setMoveState (view : PointerView P) (moveState : MoveState P) : PointerView P :=
  { view with moveState }

/-! ### The cursor -/

def setLastWindowCursor (view : PointerView P) (position : P) : PointerView P :=
  { view with lastWindowCursor := some position }

def cacheFrameCursor (env : PointerEnv P) (view : PointerView P) (position : P) : PointerView P :=
  { view with lastCursor := env.mapCursorToFrame position }

/-- The cursor is left in `lastCursor`. -/
def syncCursorFromWindowPosition (env : PointerEnv P) (view : PointerView P) : PointerView P :=
  match view.lastWindowCursor with
  | some position => view.cacheFrameCursor env position
  | none => view

def updateResizeCursor (env : PointerEnv P) (view : PointerView P) (position : P) : PointerView P :=
  if view.moveState.isDragging then view
  else { view with hoverResizeDirection := env.resizeDirectionAt position }

def clearResizeCursor (view : PointerView P) : PointerView P :=
  if view.activeResize.isSome || view.moveState.isDragging then view
  else { view with hoverResizeDirection := none }

/-! ### Snapping -/

def applyEdgeSnapRect (env : PointerEnv P) (view : PointerView P) (rect : EdgeSnapRect) :
    PointerView P :=
  let (physical, remote) := env.tileSizes rect.size
  let view :=
    { view with pendingTileRemoteResize := some remote, pendingProgrammaticResize := some physical }
  (view.tell (.requestInnerSize physical)).tell (.setOuterPosition rect.position)

/-- `snap_to_cursor_left_right_edge`, `snap_to_cursor_tile` -/
def snapToCursor (tile : P → ScreenPosition → Option EdgeSnapRect) (env : PointerEnv P)
    (view : PointerView P) : Bool × PointerView P :=
  match view.lastScreenCursor, env.snapOuter with
  | some cursor, some outer =>
    match tile cursor outer with
    | some rect => (true, view.applyEdgeSnapRect env rect)
    | none => (false, view)
  | _, _ => (false, view)

def snap (config : PointerConfig) (env : PointerEnv P) (view : PointerView P) : PointerView P :=
  let (snapped, view) := view.snapToCursor env.leftRightTile env
  if !snapped && config.edgeSnapEnabled then (view.snapToCursor env.edgeTile env).2 else view

/-! ### Moving -/

def moveDragFromCurrentCursor (env : PointerEnv P) (view : PointerView P) : Option (MoveDrag P) :=
  match view.lastWindowCursor, env.outerPosition with
  | some position, some outer => some ⟨position, outer⟩
  | _, _ => none

def rememberLeftPress (env : PointerEnv P) (view : PointerView P) : PointerView P :=
  if view.moveState.isDragging then view
  else
    match view.moveDragFromCurrentCursor env with
    | some drag => view.setMoveState (.pressed drag)
    | none => view

def clearPendingMove (view : PointerView P) : PointerView P :=
  if view.moveState.isDragging then view else view.setMoveState .idle

def beginManualMove (env : PointerEnv P) (view : PointerView P) : Bool × PointerView P :=
  match view.moveDragFromCurrentCursor env with
  | some drag => (true, view.setMoveState (.dragging drag))
  | none => (false, view)

def updateManualMove (env : PointerEnv P) (view : PointerView P) (position : P) :
    Bool × PointerView P :=
  match view.moveState with
  | .dragging drag =>
    let outer := env.computeManualMoveOuter drag.pressOuter drag.startCursorWindow position
    (true, { view with
      lastTitlebarClick := none
      lastScreenCursor := some (env.onScreen outer position) }.tell (.setOuterPosition outer))
  | _ => (false, view)

def remoteMoveReleaseGrace : Nat := 350

def moveToLastCursor (env : PointerEnv P) (view : PointerView P) : PointerView P :=
  match view.lastWindowCursor with
  | some position => (view.updateManualMove env position).2
  | none => view

/-- The part of `begin_requested_move` after the drag is found. -/
def startRequestedMove (config : PointerConfig) (env : PointerEnv P) (view : PointerView P)
    (drag : MoveDrag P) (released : Bool) : PointerView P :=
  let view := (view.setMoveState (.dragging drag)).moveToLastCursor env
  if released then (view.setMoveState .idle).clearResizeCursor.snap config env else view

def beginRequestedMove (config : PointerConfig) (env : PointerEnv P) (view : PointerView P) :
    PointerView P :=
  match view.moveState with
  | .dragging _ => view
  | .pressed drag => view.startRequestedMove config env drag false
  | .released drag since =>
    if env.now - since ≤ remoteMoveReleaseGrace then view.startRequestedMove config env drag true
    else view.setMoveState .idle
  | .idle => view.setMoveState .idle

/-- What both gestures do to the cursor at their end. -/
def settleCursor (env : PointerEnv P) (view : PointerView P) : PointerView P :=
  match view.lastWindowCursor with
  | some position => { view with hoverResizeDirection := none }.updateResizeCursor env position
  | none => view.clearResizeCursor

def finishManualMove (config : PointerConfig) (env : PointerEnv P) (view : PointerView P) :
    Bool × PointerView P :=
  match view.moveState with
  | .dragging _ => (true, ((view.setMoveState .idle).settleCursor env).snap config env)
  | .pressed drag =>
    (false, view.setMoveState (if config.macos then .idle else .released drag env.now))
  | .released _ _ => (false, view)
  | .idle => (false, view)

/-! ### Resizing -/

def beginManualResize (env : PointerEnv P) (view : PointerView P) : Bool × PointerView P :=
  match view.hoverResizeDirection, view.lastWindowCursor, env.outerPosition with
  | some direction, some _, some startOuter =>
    (true, { view with activeResize := some ⟨direction, startOuter, env.innerSize⟩ })
  | _, _, _ => (false, view)

def usesWestEdge (direction : ResizeDirection) : Bool :=
  direction = .west || direction = .northWest || direction = .southWest

def usesNorthEdge (direction : ResizeDirection) : Bool :=
  direction = .north || direction = .northEast || direction = .northWest

def updateManualResize (env : PointerEnv P) (view : PointerView P) (position : P) :
    Bool × PointerView P :=
  match view.activeResize with
  | some drag =>
    let rect := env.resizedTo drag (env.outerPosition.getD drag.startOuter) position
    let view :=
      if usesWestEdge drag.direction || usesNorthEdge drag.direction then
        view.tell (.setOuterPosition rect.position)
      else view
    (true, view.tell (.requestInnerSize rect.size))
  | none => (false, view)

def finishManualResize (env : PointerEnv P) (view : PointerView P) : Bool × PointerView P :=
  match view.activeResize with
  | some _ => (true, { view with activeResize := none }.clearPendingMove.settleCursor env)
  | none => (false, view)

/-! ### The titlebar -/

/-- `frame_width.max(1) as i32`, less so many pixels, saturating -/
def fromRight (frameWidth : UInt32) (offset : Int) : Int :=
  max ((max frameWidth 1).toInt32.toInt - offset) (-2 ^ 31)

def isTitlebarMaximizeButton (x y : Int32) (frameWidth : UInt32) : Bool :=
  0 ≤ y.toInt && y.toInt ≤ 64 && fromRight frameWidth 100 ≤ x.toInt && x.toInt ≤ fromRight frameWidth 60

def isTitlebarDoubleClickArea (x y : Int32) (frameWidth : UInt32) : Bool :=
  0 ≤ y.toInt && y.toInt ≤ 96 && 0 ≤ x.toInt && x.toInt < fromRight frameWidth 120

def titlebarDoubleClickInterval : Nat := 500

def titlebarDoubleClickDistance : Nat := 24

def isTitlebarDoubleClick (last : Option TitlebarClick) (now : Nat) (x y : Int32) : Bool :=
  last.any fun click => now - click.since ≤ titlebarDoubleClickInterval &&
    (x.toInt - click.x.toInt).natAbs ≤ titlebarDoubleClickDistance &&
    (y.toInt - click.y.toInt).natAbs ≤ titlebarDoubleClickDistance

def takeTitlebarToggleOnLeftPress (env : PointerEnv P) (view : PointerView P) :
    Bool × PointerView P :=
  let view := view.syncCursorFromWindowPosition env
  let (x, y) := view.lastCursor
  if isTitlebarMaximizeButton x y env.frameWidth then
    (true, { view with suppressNextLeftRelease := true, lastTitlebarClick := none })
  else if !isTitlebarDoubleClickArea x y env.frameWidth then
    (false, { view with lastTitlebarClick := none })
  else if !isTitlebarDoubleClick view.lastTitlebarClick env.now x y then
    (false, { view with lastTitlebarClick := some ⟨env.now, x, y⟩ })
  else (true, { view with suppressNextLeftRelease := true, lastTitlebarClick := none })

end PointerView

/-! ## The events -/

/-- One window, what its guest was sent, and the sizes that were queued for it. -/
structure PointerApp (P : Type) where
  view : PointerView P
  sent : List InputEvent
  queued : List Size

inductive PointerEvent (P : Type) where
  | cursorMoved (position : P)
  | cursorLeft
  /-- the deltas in thousandths, if one of them is not zero -/
  | mouseWheel (delta : Option (Int32 × Int32))
  | mouseInput (state : ElementState) (button : MouseButton)
  /-- the message of the guest -/
  | moveRequested

def InputButtonState.ofElement : ElementState → InputButtonState
  | .pressed => .pressed
  | .released => .released

namespace PointerApp

variable {P : Type} (config : PointerConfig) (id : UInt64) (env : PointerEnv P)

def new : PointerApp P := { view := .new, sent := [], queued := [] }

def send (app : PointerApp P) (events : List InputEvent) : PointerApp P :=
  { app with sent := app.sent ++ events }

def cursorMoved (app : PointerApp P) (position : P) : PointerApp P :=
  let view := app.view.setLastWindowCursor position
  let (moved, view) := view.updateManualMove env position
  if moved then { app with view }
  else
    let (resized, view) := view.updateManualResize env position
    if resized then { app with view }
    else
      let view := view.updateResizeCursor env position
      if view.hoverResizeDirection.isSome then { app with view }
      else
        let view := view.cacheFrameCursor env position
        { app with view }.send [.pointerMotion id view.lastCursor.1 view.lastCursor.2]

def mouseWheel (app : PointerApp P) : Option (Int32 × Int32) → PointerApp P
  | none => app
  | some (deltaX, deltaY) =>
    let position := app.view.lastWindowCursor.getD env.windowCenter
    let view := (app.view.setLastWindowCursor position).cacheFrameCursor env position
    { app with view }.send
      [.pointerMotion id view.lastCursor.1 view.lastCursor.2, .pointerScroll id deltaX deltaY]

/-- A press that is not on the titlebar: with whether the viewer keeps it for itself. -/
def beginGesture (app : PointerApp P) : Bool × PointerApp P :=
  let view := app.view.rememberLeftPress env
  let (moving, view) :=
    if hostMoveModifierActive env.modifiers then view.beginManualMove env else (false, view)
  if moving then (true, { app with view })
  else
    let (resizing, view) := view.beginManualResize env
    if resizing then (true, { app with view }.send [.focus id true]) else (false, { app with view })

def leftPressed (app : PointerApp P) : Bool × PointerApp P :=
  let (toggled, view) :=
    if config.hostChromeEnabled then (false, app.view) else app.view.takeTitlebarToggleOnLeftPress env
  if toggled then
    (true, { app with view := view.tell (.setMaximized !env.isMaximized) }.send
      [.focus id true, .toggleMaximize id])
  else { app with view }.beginGesture id env

def leftReleased (app : PointerApp P) : Bool × PointerApp P :=
  if app.view.suppressNextLeftRelease then
    (true, { app with view := { app.view with suppressNextLeftRelease := false } })
  else
    let (moved, view) := app.view.finishManualMove config env
    let moveResize := view.pendingTileRemoteResize
    let view := { view with pendingTileRemoteResize := none }
    if moved then (true, { app with view, queued := app.queued ++ moveResize.toList })
    else
      let (resized, view) := view.finishManualResize env
      if resized then (true, { app with view }.send [.focus id true]) else (false, { app with view })

/-- What is sent of a button that the viewer does not keep for itself. -/
def sendButton (app : PointerApp P) (cursor : Int32 × Int32) (state : ElementState)
    (button : MouseButton) : PointerApp P :=
  match mouseButtonCode button with
  | some code =>
    app.send ((if state = .pressed then [.focus id true] else []) ++
      [.pointerMotion id cursor.1 cursor.2, .pointerButton id code (.ofElement state)])
  | none => app

def mouseInput (app : PointerApp P) (state : ElementState) (button : MouseButton) : PointerApp P :=
  let view := app.view.syncCursorFromWindowPosition env
  let app := { app with view }
  let (handled, app) :=
    if button = .left then
      match state with
      | .pressed => app.leftPressed config id env
      | .released => app.leftReleased config id env
    else (false, app)
  if handled then app else app.sendButton id view.lastCursor state button

/-- The build for macOS leaves moves to its host. -/
def moveRequested (app : PointerApp P) : PointerApp P :=
  if config.macos then app
  else
    let view := app.view.beginRequestedMove config env
    { app with
      view := { view with pendingTileRemoteResize := none }
      queued := app.queued ++ view.pendingTileRemoteResize.toList }

end PointerApp

/-- An event, and what the viewer finds around it. -/
structure PointerStep (P : Type) where
  env : PointerEnv P
  event : PointerEvent P

namespace PointerApp

variable {P : Type} (config : PointerConfig) (id : UInt64)

def step (app : PointerApp P) (s : PointerStep P) : PointerApp P :=
  match s.event with
  | .cursorMoved position => app.cursorMoved id s.env position
  | .cursorLeft => { app with view := app.view.clearResizeCursor }
  | .mouseWheel delta => app.mouseWheel id s.env delta
  | .mouseInput state button => app.mouseInput config id s.env state button
  | .moveRequested => app.moveRequested config s.env

def run (app : PointerApp P) (steps : List (PointerStep P)) : PointerApp P :=
  steps.foldl (step config id) app

theorem run_append (app : PointerApp P) (steps more : List (PointerStep P)) :
    app.run config id (steps ++ more) = (app.run config id steps).run config id more :=
  List.foldl_append

end PointerApp

end VBox
