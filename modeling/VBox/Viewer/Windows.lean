import Mathlib.Data.Finmap
import Mathlib.Data.List.Infix
import VBox.Viewer.Fullscreen
import VBox.Viewer.KeyLedger

/-!
# Viewer.Windows

The viewer's windows (`crates/client/src/viewer/app.rs`): which of the guest's windows has which
window of the host, what is pending for it, and when the viewer exits because none is left.

The host's desktop comes in with each event, as a `HostEnv`: the time, what a window of the host
answers when it is asked, and the order in which hash maps are walked. What the source computes in
floating point is among the answers.
-/

namespace VBox

open Compositor

/-- The window that a window event is about. -/
def WindowEvent.id : WindowEvent → UInt64
  | .created id _ _ _ => id
  | .configured id _ => id
  | .destroyed id => id
  | .titleChanged id _ => id
  | .minimized id => id
  | .moveRequested id => id
  | .fullscreenChanged id _ => id

/-! ## The host -/

/-- The host's name of one of its windows. -/
structure WindowId where
  raw : Nat
  deriving DecidableEq

/-- What a window of the host answers. -/
structure HostAnswers where
  /-- `is_window_fullscreen` -/
  fullscreen : Bool
  /-- `resize_request_for_current_inner_size` -/
  resizeRequest : Option Size
  /-- `host_resize_resync_needed` for the current size and the one that fits the frame -/
  resizeResyncNeeded : Bool
  /-- `scaled_inner_sizes` -/
  scaledInnerSize : Size
  /-- `initial_adopt_cap`, in pixels -/
  initialAdoptCap : Option Size
  /-- whether the surface takes a picture -/
  presents : Bool
  /-- the size that `begin_requested_move` leaves for the guest -/
  tileRemoteResize : Option Size

/-- What the viewer finds around it while it handles an event. -/
structure HostEnv where
  /-- milliseconds -/
  now : Nat
  host : WindowId → HostAnswers
  /-- the name of the next window -/
  created : WindowId
  /-- the order in which the held keys are walked when those of a window are released -/
  keyOrder : UInt64 → List UInt32
  retiredOrder : List UInt64
  fullscreenExitOrder : List UInt64
  resizeOrder : List UInt64
  hostResizeOrder : List UInt64

/-! ## Sizes -/

def shouldAdoptHostWindow (alreadyAdopted sizeChanged : Bool) : Bool := sizeChanged && !alreadyAdopted

def adoptionMinContentW : Nat := 240

def adoptionMinContentH : Nat := 160

def adoptionMaxAspect : Nat := 5

/-- For sizes below `2 ^ 32` the quotient of `f64`s is above the bound exactly when the exact one is. -/
def isContentRectAdoptable (contentW contentH : Nat) : Bool :=
  if contentW < adoptionMinContentW ∨ contentH < adoptionMinContentH then false
  else max contentW contentH ≤ adoptionMaxAspect * min contentW contentH

/-! ## Titles -/

/-- `str::contains` -/
def strContains (s needle : List Char) : Bool := needle <:+: s

/-- `str::to_ascii_lowercase` -/
def toAsciiLowercase (s : String) : List Char := s.toList.map Char.toLower

def windowTitle (title : String) : String := if title.isEmpty then "vbox" else title

def knownChrome : List (String × String) :=
  [("firefox", "Firefox"), ("chrome", "Chrome"), ("chromium", "Chromium"), ("brave", "Brave"),
    ("electron", "Electron"), ("code", "VS Code"), ("vscodium", "VSCodium"), ("ptyxis", "Ptyxis"),
    ("gnome.terminal", "GNOME Terminal"), ("gnome-terminal", "GNOME Terminal"),
    ("gnome.console", "GNOME Console"), ("gnome-console", "GNOME Console"),
    ("kgx", "GNOME Console"), ("terminal", "Terminal"), ("터미널", "Terminal"), ("@", "Terminal")]

def guestAppUsesOwnChrome (appId title : String) : Option String :=
  let needleApp := (toAsciiLowercase appId).map fun c => if c = '.' ∨ c = '_' then '-' else c
  let needleTitle := toAsciiLowercase title
  (knownChrome.find? fun known =>
    strContains needleApp known.1.toList || strContains needleTitle known.1.toList).map (·.2)

/-! ## One window -/

structure ViewerWindow where
  window : WindowId
  title : String
  appId : String
  frame : FrameBuffer
  redrawPending : Bool
  visible : Bool
  pendingProgrammaticResize : Option Size
  remoteResizeInFlight : Option Size
  adoptedInitialSize : Bool
  adoptedFromFrameTile : Bool
  usesOwnChrome : Bool
  lastHostFullscreen : Bool

namespace ViewerWindow

def requestRedraw (view : ViewerWindow) : ViewerWindow := { view with redrawPending := true }

/-- The first picture that is presented shows the window. -/
def render (view : ViewerWindow) (host : HostAnswers) : ViewerWindow :=
  if host.presents then { view with redrawPending := false, visible := true } else view

def hide (view : ViewerWindow) : ViewerWindow := { view with visible := false }

def requestScaledInnerSize (view : ViewerWindow) (host : HostAnswers) : ViewerWindow :=
  { view with pendingProgrammaticResize := some host.scaledInnerSize }

def requestScaledInnerSizeIfNeeded (view : ViewerWindow) (host : HostAnswers) : ViewerWindow :=
  if host.fullscreen then view
  else if host.resizeResyncNeeded then
    { view with pendingProgrammaticResize := some host.scaledInnerSize }.requestRedraw
  else view

def needsHostResizeResyncAfterRemote (host : HostAnswers) : Bool :=
  !host.fullscreen && host.resizeResyncNeeded

def resizeToRemoteSize (view : ViewerWindow) (host : HostAnswers) (width height : Nat) :
    Except Fault ViewerWindow := do
  let width := max width 1
  let height := max height 1
  let sizeChanged := view.frame.width ≠ width ∨ view.frame.height ≠ height
  let frame ← view.frame.resizeForRemoteSize width height
  let view := { view with frame }
  if ¬ sizeChanged then return view
  else if !shouldAdoptHostWindow view.adoptedInitialSize true then return view
  else
    let view := { view with adoptedInitialSize := true }
    match host.initialAdoptCap with
    | some physical => return { view with pendingProgrammaticResize := some physical }
    | none => return view.requestScaledInnerSize host

/-- With whether the resize was one that the viewer had asked for. -/
def consumeProgrammaticResize (view : ViewerWindow) (size : Size) : Bool × ViewerWindow :=
  (match view.pendingProgrammaticResize with
    | none => false
    | some expected => programmaticResizeMatches expected size,
    { view with pendingProgrammaticResize := none })

/-- What a drawn tile does to its window. The first content that can be a whole window sizes it. -/
def tileDrawn (view : ViewerWindow) (host : HostAnswers) (frame : FrameBuffer)
    (displaySizeChanged : Bool) : ViewerWindow :=
  let view := { view with frame, remoteResizeInFlight := none }
  let view :=
    if shouldAdoptHostWindow view.adoptedFromFrameTile displaySizeChanged &&
        isContentRectAdoptable frame.displaySize.1 frame.displaySize.2 then
      { view with adoptedFromFrameTile := true, adoptedInitialSize := true }.requestScaledInnerSize host
    else view
  view.requestRedraw.render host

/-- What a `Resized` does to its window, with the size to ask the guest for. A resize that the viewer
asked for is not the user's. -/
def hostResized (view : ViewerWindow) (host : HostAnswers) (size : Size) :
    Option Size × ViewerWindow :=
  let toggled := host.fullscreen != view.lastHostFullscreen
  let view :=
    if toggled then
      { view with lastHostFullscreen := host.fullscreen, pendingProgrammaticResize := none }
    else view
  let (resize, view) :=
    if !(toggled && !host.fullscreen) && !host.fullscreen && view.visible then
      let (programmatic, view) := view.consumeProgrammaticResize size
      (if programmatic then none else host.resizeRequest, view)
    else (none, view)
  (resize, view.requestRedraw)

@[simp] theorem requestRedraw_window (view : ViewerWindow) : view.requestRedraw.window = view.window :=
  rfl

@[simp] theorem hide_window (view : ViewerWindow) : view.hide.window = view.window := rfl

@[simp] theorem requestScaledInnerSize_window (view : ViewerWindow) (host : HostAnswers) :
    (view.requestScaledInnerSize host).window = view.window := rfl

@[simp] theorem render_window (view : ViewerWindow) (host : HostAnswers) :
    (view.render host).window = view.window := by
  unfold render
  split <;> rfl

@[simp] theorem requestScaledInnerSizeIfNeeded_window (view : ViewerWindow) (host : HostAnswers) :
    (view.requestScaledInnerSizeIfNeeded host).window = view.window := by
  unfold requestScaledInnerSizeIfNeeded
  split
  · rfl
  · split <;> rfl

theorem resizeToRemoteSize_window {view view' : ViewerWindow} {host : HostAnswers}
    {width height : Nat} (h : view.resizeToRemoteSize host width height = .ok view') :
    view'.window = view.window := by
  unfold resizeToRemoteSize at h
  obtain ⟨frame, -, h⟩ := Raster.bind_eq_ok.1 h
  dsimp only at h
  split at h
  · cases h
    rfl
  split at h
  · cases h
    rfl
  split at h
  · cases h
    rfl
  · cases h
    rfl

@[simp] theorem tileDrawn_window (view : ViewerWindow) (host : HostAnswers) (frame : FrameBuffer)
    (displaySizeChanged : Bool) :
    (view.tileDrawn host frame displaySizeChanged).window = view.window := by
  simp only [tileDrawn, render_window, requestRedraw_window]
  split <;> rfl

@[simp] theorem hostResized_window (view : ViewerWindow) (host : HostAnswers) (size : Size) :
    (view.hostResized host size).2.window = view.window := by
  simp only [hostResized, requestRedraw_window]
  split <;> split <;> rfl

end ViewerWindow

/-! ## The app -/

def hostResizeResyncDelay : Nat := 180

def windowReplacementGrace : Nat := 2000

structure ViewerApp where
  windows : Finmap fun _ : UInt64 => ViewerWindow
  windowIds : Table WindowId UInt64
  pendingResizes : Table UInt64 PendingRemoteResize
  pendingFullscreenExitResyncs : Table UInt64 Nat
  pendingHostResizeResyncs : Table UInt64 Nat
  keys : KeyLedger
  retiredWindowIds : Finset UInt64
  emptyWindowsSince : Option Nat
  /-- The event loop was told to exit when the grace period was over. -/
  exited : Bool

namespace ViewerApp

def new : ViewerApp :=
  { windows := ∅, windowIds := .empty, pendingResizes := .empty,
    pendingFullscreenExitResyncs := .empty, pendingHostResizeResyncs := .empty, keys := .empty,
    retiredWindowIds := ∅, emptyWindowsSince := none, exited := false }

def activeWindows (app : ViewerApp) : Finset UInt64 := app.windows.keys \ app.retiredWindowIds

def activeWindowCount (app : ViewerApp) : Nat := app.activeWindows.card

def sendInput (app : ViewerApp) (event : InputEvent) : ViewerApp :=
  { app with keys := app.keys.sendInput event }

def initialWindowSize : Nat := 1

/-- The host gives a new window a name; nothing else about the host matters here. -/
def createWindow (app : ViewerApp) (env : HostEnv) (id : UInt64) (width height : Nat)
    (title appId : String) : Except Fault ViewerApp :=
  let width := max width 1
  let height := max height 1
  let title := windowTitle title
  match app.windows.lookup id with
  | some view => do
    let view :=
      { view with
        title, appId
        usesOwnChrome := view.usesOwnChrome || (guestAppUsesOwnChrome appId title).isSome }
    let view ← view.resizeToRemoteSize (env.host view.window) width height
    return { app with
      retiredWindowIds := app.retiredWindowIds.erase id
      windows := app.windows.insert id view }
  | none => do
    let frame ← FrameBuffer.new initialWindowSize initialWindowSize
    let view : ViewerWindow :=
      { window := env.created, title, appId, frame
        redrawPending := false, visible := false, pendingProgrammaticResize := none
        remoteResizeInFlight := none, adoptedInitialSize := false, adoptedFromFrameTile := false
        usesOwnChrome := (guestAppUsesOwnChrome appId title).isSome, lastHostFullscreen := false }
    let view ← view.resizeToRemoteSize (env.host env.created) width height
    return { app with
      windowIds := app.windowIds.insert env.created id
      windows := app.windows.insert id view }

def removeWindow (app : ViewerApp) (keyOrder : UInt64 → List UInt32) (id : UInt64) : ViewerApp :=
  let app :=
    { app with
      retiredWindowIds := app.retiredWindowIds.erase id
      pendingResizes := app.pendingResizes.remove id
      pendingFullscreenExitResyncs := app.pendingFullscreenExitResyncs.remove id
      pendingHostResizeResyncs := app.pendingHostResizeResyncs.remove id }
  let app :=
    match app.windows.lookup id with
    | some view =>
      { app with
        windows := app.windows.erase id
        windowIds := app.windowIds.remove view.window }
    | none => app
  { app with keys := app.keys.releaseWindowGuestKeys id (keyOrder id) }

def retireLastWindow (app : ViewerApp) (keyOrder : UInt64 → List UInt32) (id : UInt64) : ViewerApp :=
  let windows :=
    match app.windows.lookup id with
    | some view => app.windows.insert id view.hide
    | none => app.windows
  { app with
    windows
    pendingResizes := app.pendingResizes.remove id
    pendingFullscreenExitResyncs := app.pendingFullscreenExitResyncs.remove id
    pendingHostResizeResyncs := app.pendingHostResizeResyncs.remove id
    keys := app.keys.releaseWindowGuestKeys id (keyOrder id)
    retiredWindowIds := insert id app.retiredWindowIds }

/-- The set is emptied first, and then its windows are removed. -/
def removeRetiredWindows (app : ViewerApp) (env : HostEnv) : ViewerApp :=
  env.retiredOrder.foldl (fun app id => app.removeWindow env.keyOrder id)
    { app with retiredWindowIds := ∅ }

/-! ### What waits for its time -/

def queueRemoteResize (app : ViewerApp) (env : HostEnv) (id : UInt64) (width height : UInt32) :
    ViewerApp :=
  { app with
    pendingResizes := app.pendingResizes.insert id
      { width := max width 1, height := max height 1, due := env.now + HostWindow.remoteResizeDebounce } }

def queueFullscreenExitResync (app : ViewerApp) (env : HostEnv) (id : UInt64) : ViewerApp :=
  { app with
    pendingResizes := app.pendingResizes.remove id
    pendingHostResizeResyncs := app.pendingHostResizeResyncs.remove id
    pendingFullscreenExitResyncs :=
      app.pendingFullscreenExitResyncs.insert id (env.now + HostWindow.fullscreenExitResyncDelay) }

def queueHostResizeResync (app : ViewerApp) (env : HostEnv) (id : UInt64) : ViewerApp :=
  { app with
    pendingHostResizeResyncs :=
      app.pendingHostResizeResyncs.insert id (env.now + hostResizeResyncDelay) }

def cancelPending (app : ViewerApp) (id : UInt64) : ViewerApp :=
  { app with
    pendingFullscreenExitResyncs := app.pendingFullscreenExitResyncs.remove id
    pendingResizes := app.pendingResizes.remove id
    pendingHostResizeResyncs := app.pendingHostResizeResyncs.remove id }

def sendRemoteResizeNow (app : ViewerApp) (id : UInt64) (width height : UInt32) : ViewerApp :=
  let windows :=
    match app.windows.lookup id with
    | some view => app.windows.insert id { view with remoteResizeInFlight := some (width, height) }
    | none => app.windows
  ({ app with windows }.sendInput (.focus id true)).sendInput (.resize id width height)

def sendFullscreenResync (env : HostEnv) (app : ViewerApp) (id : UInt64) : ViewerApp :=
  match (app.windows.lookup id).bind fun view => (env.host view.window).resizeRequest with
  | none => app
  | some (width, height) => app.sendRemoteResizeNow id width height

def sendDebounced (app : ViewerApp) (ready : UInt64 × PendingRemoteResize) : ViewerApp :=
  app.sendRemoteResizeNow ready.1 ready.2.width ready.2.height

def resyncHostSize (env : HostEnv) (app : ViewerApp) (id : UInt64) : ViewerApp :=
  match app.windows.lookup id with
  | none => app
  | some view =>
    { app with
      windows := app.windows.insert id
        (view.requestScaledInnerSizeIfNeeded (env.host view.window)) }

/-- The keys whose time has come, in the order of the hash map. -/
def dueIds (pending : Table UInt64 Nat) (order : List UInt64) (now : Nat) : List UInt64 :=
  order.filter fun id => (pending.get? id).any (· ≤ now)

def flushDueRemoteResizes (app : ViewerApp) (env : HostEnv) : ViewerApp :=
  let readyFullscreenResyncs := dueIds app.pendingFullscreenExitResyncs env.fullscreenExitOrder env.now
  let ready := env.resizeOrder.filterMap fun id =>
    ((app.pendingResizes.get? id).filter (·.due ≤ env.now)).map fun resize => (id, resize)
  let readyHostResyncs := dueIds app.pendingHostResizeResyncs env.hostResizeOrder env.now
  let app :=
    { app with
      pendingFullscreenExitResyncs := app.pendingFullscreenExitResyncs.retain fun _ due => env.now < due
      pendingResizes := app.pendingResizes.retain fun _ resize => env.now < resize.due
      pendingHostResizeResyncs := app.pendingHostResizeResyncs.retain fun _ due => env.now < due }
  let app := readyFullscreenResyncs.foldl (sendFullscreenResync env) app
  let app := ready.foldl sendDebounced app
  let app := readyHostResyncs.foldl (resyncHostSize env) app
  match app.emptyWindowsSince with
  | none => app
  | some startedAt =>
    if startedAt + windowReplacementGrace ≤ env.now then
      { app.removeRetiredWindows env with exited := true }
    else app

/-! ### Messages -/

def setView (app : ViewerApp) (id : UInt64) (view : ViewerWindow) : ViewerApp :=
  { app with windows := app.windows.insert id view }

def handleTitleChanged (app : ViewerApp) (env : HostEnv) (id : UInt64) (title : String) : ViewerApp :=
  match app.windows.lookup id with
  | none => app
  | some view =>
    let title := windowTitle title
    let usesOwnChrome := (guestAppUsesOwnChrome view.appId title).isSome
    let view :=
      if usesOwnChrome && !view.usesOwnChrome then
        ({ view with usesOwnChrome := true }.requestScaledInnerSize (env.host view.window)).requestRedraw
      else view
    app.setView id { view with title }

/-- On a Mac the desktop itself moves the window. -/
def handleMoveRequested (app : ViewerApp) (env : HostEnv) (id : UInt64) : ViewerApp :=
  match (app.windows.lookup id).bind fun view => (env.host view.window).tileRemoteResize with
  | some (width, height) => app.queueRemoteResize env id width height
  | none => app

def handleFullscreenChanged (app : ViewerApp) (env : HostEnv) (id : UInt64) (fullscreen : Bool) :
    ViewerApp :=
  let known := (app.windows.lookup id).isSome
  let app :=
    match app.windows.lookup id with
    | some view =>
      app.setView id
        { view with pendingProgrammaticResize := none, lastHostFullscreen := fullscreen }
    | none => app
  if fullscreen then app.cancelPending id
  else if known then app.queueFullscreenExitResync env id
  else app

def handleRemoteWindowEvent (app : ViewerApp) (env : HostEnv) :
    WindowEvent → Except Fault ViewerApp
  | .created id geom title appId =>
    { app with emptyWindowsSince := none }.createWindow env id (max geom.w.toNat 1)
      (max geom.h.toNat 1) title appId
  | .configured id geom =>
    match app.windows.lookup id with
    | some view => do
      let view ← view.resizeToRemoteSize (env.host view.window) (max geom.w.toNat 1)
        (max geom.h.toNat 1)
      return app.setView id view.requestRedraw
    | none => .ok app
  | .titleChanged id title => .ok (app.handleTitleChanged env id title)
  | .minimized _ => .ok app
  | .moveRequested id => .ok (app.handleMoveRequested env id)
  | .fullscreenChanged id fullscreen => .ok (app.handleFullscreenChanged env id fullscreen)
  | .destroyed id =>
    .ok (if app.activeWindowCount ≤ 1 ∧ id ∈ app.windows then
        { app.retireLastWindow env.keyOrder id with emptyWindowsSince := some env.now }
      else app.removeWindow env.keyOrder id)

def handleFrameTile (app : ViewerApp) (env : HostEnv) (tile : FrameTile) : Except Fault ViewerApp :=
  match app.windows.lookup tile.id with
  | none => .ok app
  | some view =>
    match view.frame.applyTile tile with
    | .error (.rejected _) => .ok app
    | .error (.panicked fault) => .error fault
    | .ok (frame, displaySizeChanged) =>
      let host := env.host view.window
      let queueResync := view.remoteResizeInFlight.isSome &&
        ViewerWindow.needsHostResizeResyncAfterRemote host
      let app := app.setView tile.id (view.tileDrawn host frame displaySizeChanged)
      .ok (if queueResync then app.queueHostResizeResync env tile.id else app)

/-! ### The host's events -/

/-- The `Resized` event of a window, after the window was found. -/
def handleResized (app : ViewerApp) (env : HostEnv) (id : UInt64) (size : Size) : ViewerApp :=
  let app :=
    { app with pendingHostResizeResyncs := app.pendingHostResizeResyncs.remove id }
  match app.windows.lookup id with
  | none => app
  | some view =>
    let host := env.host view.window
    let toggled := host.fullscreen != view.lastHostFullscreen
    let schedulePostExitResync := toggled && !host.fullscreen
    let cancelPostExitResync := toggled && host.fullscreen
    let (resize, view) := view.hostResized host size
    let app := app.setView id view
    let app := if toggled then app.sendInput (.setFullscreen id host.fullscreen) else app
    let app := if cancelPostExitResync then app.cancelPending id else app
    let app := if schedulePostExitResync then app.queueFullscreenExitResync env id else app
    match resize with
    | some (width, height) => app.queueRemoteResize env id width height
    | none => app

/-- What happens to the viewer. -/
inductive HostEvent where
  | windowEvent (event : WindowEvent)
  | frameTile (tile : FrameTile)
  | resized (window : WindowId) (size : Size)
  | redrawRequested (window : WindowId)
  | aboutToWait

/-- Events of a window that the viewer does not know are ignored. -/
def handle (app : ViewerApp) (env : HostEnv) : HostEvent → Except Fault ViewerApp
  | .windowEvent event => app.handleRemoteWindowEvent env event
  | .frameTile tile => app.handleFrameTile env tile
  | .resized window size =>
    match app.windowIds.get? window with
    | none => .ok app
    | some id => .ok (app.handleResized env id size)
  | .redrawRequested window =>
    match (app.windowIds.get? window).bind fun id =>
        (app.windows.lookup id).map fun view => (id, view) with
    | none => .ok app
    | some (id, view) =>
      .ok (if view.redrawPending then app.setView id (view.render (env.host view.window)) else app)
  | .aboutToWait => .ok (app.flushDueRemoteResizes env)

end ViewerApp
end VBox
