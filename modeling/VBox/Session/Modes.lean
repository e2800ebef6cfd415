import VBox.Lib.Runs
import VBox.Session.Callbacks

/-!
# Session.Modes

The mode of a window, the flags of its `xdg_toplevel` and what the viewer hears about them.

Six functions change the mode of a window. Each is a `ModeRequest`, and `ModeRequest.apply` is what
it does to one window and which `FullscreenChanged` it queues. `step_mode` says that a callback
either carries out one request on one window or leaves all modes alone, so the properties of a
session come from those of `apply`.

* `mode_consistent`: flags and restore sizes fit the mode in every state of a session.
* `echoes_iff`: the last `FullscreenChanged` tells the truth all along a session exactly when no
  window is maximized while it is fullscreen.
-/

namespace VBox.Compositor

open Raster

/-! ## Requests -/

inductive ModeRequest where
  | resize (width height : UInt32)
  | maximize
  | unmaximize (suppressRecentMove : Bool)
  | fullscreen
  | unfullscreen (suppressRecentMove : Bool)
  deriving DecidableEq

/-- One window under a request: the new window, and the `fullscreen` of the message queued for it. -/
def ModeRequest.apply (maxOutputSize : Size) (now : Nat) (window : RemoteWindow) :
    ModeRequest → RemoteWindow × Option Bool
  | .resize width height =>
    if window.size = nonzeroSize (width, height) ∧ window.mode = .normal then (window, none)
    else
      ({ window with mode := .normal }.configure (nonzeroSize (width, height)) false false,
        if window.mode.isFullscreen then some false else none)
  | .maximize =>
    match window.mode with
    | .maximized _ =>
      if window.size = nonzeroSize maxOutputSize then (window, none)
      else (window.configure (nonzeroSize maxOutputSize) true false, none)
    | _ =>
      ({ window with
          mode := .maximized (nonzeroSize (restoreSizeForModeEntry window.size maxOutputSize)) }.configure
          (nonzeroSize maxOutputSize) true false, none)
  | .unmaximize suppress =>
    if suppress ∧ window.inGrace now then ({ window with lastMoveRequestAt := none }, none)
    else
      match window.mode with
      | .maximized restoreSize =>
        ({ window with mode := .normal }.configure (nonzeroSize restoreSize) false
          window.toplevel.fullscreen, none)
      | _ => (window, none)
  | .fullscreen =>
    match window.mode with
    | .fullscreen _ =>
      if window.size = nonzeroSize maxOutputSize then (window, some true)
      else (window.configure (nonzeroSize maxOutputSize) false true, some true)
    | _ =>
      ({ window with
          mode := .fullscreen (nonzeroSize (restoreSizeForModeEntry window.size maxOutputSize)) }.configure
          (nonzeroSize maxOutputSize) false true, some true)
  | .unfullscreen suppress =>
    if suppress ∧ window.inGrace now then ({ window with lastMoveRequestAt := none }, none)
    else
      match window.mode with
      | .fullscreen restoreSize =>
        ({ window with mode := .normal }.configure (nonzeroSize restoreSize)
          window.toplevel.maximized false, some false)
      | _ => (window, some false)

namespace App

variable {app app' : App} {env : Env} {id : UInt64}

/-- What a callback asks of the mode of a window. -/
def modeRequest (app : App) (call : Call) : Option (UInt64 × ModeRequest) :=
  match call.event with
  | .input (.resize id width height) => some (id, .resize width height)
  | .input (.toggleMaximize id) =>
    (app.windows.get? id).map fun window =>
      (id, if window.mode.isMaximized then .unmaximize false else .maximize)
  | .input (.setFullscreen id fullscreen) =>
    some (id, if fullscreen then .fullscreen else .unfullscreen false)
  | .maximizeRequest surface =>
    if call.env.gtkWmRequestsEnabled then
      (app.surfaceToWindow.get? surface).map fun id => (id, .maximize)
    else none
  | .unmaximizeRequest surface =>
    if call.env.gtkWmRequestsEnabled then
      (app.surfaceToWindow.get? surface).map fun id => (id, .unmaximize true)
    else none
  | .fullscreenRequest surface =>
    (app.surfaceToWindow.get? surface).map fun id => (id, .fullscreen)
  | .unfullscreenRequest surface =>
    (app.surfaceToWindow.get? surface).map fun id => (id, .unfullscreen true)
  | _ => none

def perform (app : App) (env : Env) (id : UInt64) : ModeRequest → App
  | .resize width height => app.requestWindowResize id width height
  | .maximize => app.requestWindowMaximizeById id
  | .unmaximize suppress => app.requestWindowUnmaximizeById env id suppress
  | .fullscreen => app.requestWindowFullscreenById id
  | .unfullscreen suppress => app.requestWindowUnfullscreenById env id suppress

/-! ## Echoes -/

/-- The `fullscreen` of a `FullscreenChanged` for a window. -/
def echo (id : UInt64) : Message → Option Bool
  | .windowEvent (.fullscreenChanged windowId fullscreen) =>
    if windowId = id then some fullscreen else none
  | _ => none

/-- What the viewer is told about a window, in order. -/
def echoes (tx : List Message) (id : UInt64) : List Bool := tx.filterMap (echo id)

def lastEcho (tx : List Message) (id : UInt64) : Option Bool := (echoes tx id).getLast?

@[simp] theorem echoes_append (tx tx' : List Message) (id : UInt64) :
    echoes (tx ++ tx') id = echoes tx id ++ echoes tx' id := List.filterMap_append

@[simp] theorem echoes_singleton (msg : Message) (id : UInt64) :
    echoes [msg] id = (echo id msg).toList := by
  cases hecho : echo id msg with
  | none => simp [echoes, hecho]
  | some fullscreen => simp [echoes, hecho]

@[simp] theorem echoes_tiles (tiles : List FrameTile) (id : UInt64) :
    echoes (tiles.map .frameTile) id = [] := by
  simp [echoes, List.filterMap_eq_nil_iff, echo]

theorem lastEcho_of_echoes {tx tx' : List Message} {id : UInt64} {told : Option Bool}
    (h : echoes tx' id = echoes tx id ++ told.toList) : lastEcho tx' id = told.or (lastEcho tx id) := by
  rw [lastEcho, h, lastEcho]
  cases told with
  | none => simp
  | some fullscreen => simp

/-- One window has changed, and a `FullscreenChanged` may have been queued for it. -/
structure Performed (app app' : App) (id : UInt64) (window : RemoteWindow) (echo : Option Bool) :
    Prop where
  windows : ∀ i, app'.windows.get? i = if i = id then some window else app.windows.get? i
  tx : app'.tx = app.tx ++ echo.toList.map fun b => .windowEvent (.fullscreenChanged id b)
  rest : app' = { app with windows := app'.windows, outputSize := app'.outputSize, tx := app'.tx }

theorem Performed.refl {window : RemoteWindow} (h : app.windows.get? id = some window) :
    Performed app app id window none := by
  refine ⟨fun i => ?_, by simp, rfl⟩
  split
  · rename_i hi
    rw [hi, h]
  · rfl

theorem Performed.setWindow (app : App) (id : UInt64) (window : RemoteWindow) :
    Performed app (app.setWindow id window) id window none :=
  ⟨fun _ => by simp [App.setWindow], by simp [App.setWindow], rfl⟩

theorem Performed.echo {window : RemoteWindow} (h : Performed app app' id window none)
    (fullscreen : Bool) :
    Performed app (app'.enqueueMessage (.windowEvent (.fullscreenChanged id fullscreen))) id window
      (some fullscreen) := by
  refine ⟨h.windows, ?_, ?_⟩
  · simp [enqueueMessage, h.tx]
  · rw [h.rest]
    rfl

theorem Performed.setOutputSize {size : Size} {window : RemoteWindow} {echo : Option Bool}
    (h : Performed (app.setOutputSize size) app' id window echo) :
    Performed app app' id window echo :=
  ⟨h.windows, h.tx, h.rest⟩

theorem perform_of_none (h : app.windows.get? id = none) (r : ModeRequest) :
    app.perform env id r = app := by
  cases r <;>
    simp [perform, requestWindowResize, requestWindowMaximizeById, requestWindowUnmaximizeById,
      requestWindowFullscreenById, requestWindowUnfullscreenById, h]

section Perform

variable {window : RemoteWindow} (h : app.windows.get? id = some window)

include h

theorem perform_resize (width height : UInt32) (now : Nat) :
    Performed app (app.requestWindowResize id width height) id
      (ModeRequest.apply app.maxOutputSize now window (.resize width height)).1
      (ModeRequest.apply app.maxOutputSize now window (.resize width height)).2 := by
  simp only [requestWindowResize, h, ModeRequest.apply]
  cases hmode : window.mode with
  | normal =>
    by_cases hsize : window.size = nonzeroSize (width, height)
    · simpa [hsize, WindowMode.isMaximized, WindowMode.isFullscreen] using Performed.refl h
    · simpa [hsize, WindowMode.isFullscreen] using (Performed.setWindow _ id _).setOutputSize
  | maximized restoreSize =>
    simpa [WindowMode.isMaximized, WindowMode.isFullscreen] using
      (Performed.setWindow _ id _).setOutputSize
  | fullscreen restoreSize =>
    simpa [WindowMode.isMaximized, WindowMode.isFullscreen] using
      ((Performed.setWindow _ id _).setOutputSize).echo false

theorem perform_maximize (now : Nat) :
    Performed app (app.requestWindowMaximizeById id) id
      (ModeRequest.apply app.maxOutputSize now window .maximize).1
      (ModeRequest.apply app.maxOutputSize now window .maximize).2 := by
  simp only [requestWindowMaximizeById, h, ModeRequest.apply]
  cases hmode : window.mode with
  | normal =>
    simpa [WindowMode.isMaximized, WindowMode.enterMaximized] using Performed.setWindow app id _
  | maximized restoreSize =>
    by_cases hsize : window.size = nonzeroSize app.maxOutputSize
    · simpa [hsize, WindowMode.isMaximized] using Performed.refl h
    · -- the mode is the one it was
      simpa [hsize, WindowMode.isMaximized, WindowMode.enterMaximized, ← hmode] using
        Performed.setWindow app id _
  | fullscreen restoreSize =>
    simpa [WindowMode.isMaximized, WindowMode.enterMaximized] using Performed.setWindow app id _

theorem perform_unmaximize (suppress : Bool) (env : Env) :
    Performed app (app.requestWindowUnmaximizeById env id suppress) id
      (ModeRequest.apply app.maxOutputSize env.now window (.unmaximize suppress)).1
      (ModeRequest.apply app.maxOutputSize env.now window (.unmaximize suppress)).2 := by
  simp only [requestWindowUnmaximizeById, h, ModeRequest.apply]
  split
  · exact Performed.setWindow app id _
  · cases hmode : window.mode with
    | normal => exact Performed.refl h
    | maximized restoreSize => exact Performed.setWindow app id _
    | fullscreen restoreSize => exact Performed.refl h

theorem perform_fullscreen (now : Nat) :
    Performed app (app.requestWindowFullscreenById id) id
      (ModeRequest.apply app.maxOutputSize now window .fullscreen).1
      (ModeRequest.apply app.maxOutputSize now window .fullscreen).2 := by
  simp only [requestWindowFullscreenById, h, ModeRequest.apply]
  cases hmode : window.mode with
  | normal =>
    simpa [WindowMode.isFullscreen, WindowMode.enterFullscreen] using
      (Performed.setWindow app id _).echo true
  | maximized restoreSize =>
    simpa [WindowMode.isFullscreen, WindowMode.enterFullscreen] using
      (Performed.setWindow app id _).echo true
  | fullscreen restoreSize =>
    by_cases hsize : window.size = nonzeroSize app.maxOutputSize
    · simpa [hsize, WindowMode.isFullscreen] using (Performed.refl h).echo true
    · simpa [hsize, WindowMode.isFullscreen, WindowMode.enterFullscreen, ← hmode] using
        (Performed.setWindow app id _).echo true

theorem perform_unfullscreen (suppress : Bool) (env : Env) :
    Performed app (app.requestWindowUnfullscreenById env id suppress) id
      (ModeRequest.apply app.maxOutputSize env.now window (.unfullscreen suppress)).1
      (ModeRequest.apply app.maxOutputSize env.now window (.unfullscreen suppress)).2 := by
  simp only [requestWindowUnfullscreenById, h, ModeRequest.apply]
  split
  · exact Performed.setWindow app id _
  · cases hmode : window.mode with
    | normal => exact (Performed.refl h).echo false
    | maximized restoreSize => exact (Performed.refl h).echo false
    | fullscreen restoreSize => exact (Performed.setWindow app id _).echo false

/-- A request is what it does to the window it is for. -/
theorem perform_spec (env : Env) (r : ModeRequest) :
    Performed app (app.perform env id r) id (r.apply app.maxOutputSize env.now window).1
      (r.apply app.maxOutputSize env.now window).2 := by
  cases r with
  | resize width height => exact perform_resize h width height env.now
  | maximize => exact perform_maximize h env.now
  | unmaximize suppress => exact perform_unmaximize h suppress env
  | fullscreen => exact perform_fullscreen h env.now
  | unfullscreen suppress => exact perform_unfullscreen h suppress env

end Perform

/-! ## Callbacks that leave the modes alone -/

structure SameMode (window' window : RemoteWindow) : Prop where
  mode : window'.mode = window.mode
  maximized : window'.toplevel.maximized = window.toplevel.maximized
  fullscreen : window'.toplevel.fullscreen = window.toplevel.fullscreen

/-- Windows may go, and those that stay keep their mode. -/
structure Quiet (app app' : App) : Prop where
  maxOutputSize : app'.maxOutputSize = app.maxOutputSize
  windows : ∀ id window', app'.windows.get? id = some window' →
    ∃ window, app.windows.get? id = some window ∧ SameMode window' window
  echoes : ∀ id, echoes app'.tx id = echoes app.tx id

theorem Quiet.trans {app'' : App} (h : Quiet app app') (h' : Quiet app' app'') :
    Quiet app app'' := by
  refine ⟨h'.maxOutputSize.trans h.maxOutputSize, fun id window'' hwindow'' => ?_,
    fun id => (h'.echoes id).trans (h.echoes id)⟩
  obtain ⟨window', hwindow', hsame'⟩ := h'.windows id window'' hwindow''
  obtain ⟨window, hwindow, hsame⟩ := h.windows id window' hwindow'
  exact ⟨window, hwindow, hsame'.mode.trans hsame.mode, hsame'.maximized.trans hsame.maximized,
    hsame'.fullscreen.trans hsame.fullscreen⟩

/-- What only touches the other tables is quiet. -/
theorem quiet_of_windows_eq (hmax : app'.maxOutputSize = app.maxOutputSize)
    (hwindows : app'.windows = app.windows) (htx : ∀ id, echoes app'.tx id = echoes app.tx id) :
    Quiet app app' :=
  ⟨hmax, fun _ window hwindow => ⟨window, hwindows ▸ hwindow, rfl, rfl, rfl⟩, htx⟩

theorem Quiet.refl (app : App) : Quiet app app := quiet_of_windows_eq rfl rfl fun _ => rfl

theorem quiet_enqueueMessage (app : App) {msg : Message} (h : ∀ id, echo id msg = none) :
    Quiet app (app.enqueueMessage msg) :=
  quiet_of_windows_eq rfl rfl fun id => by simp [enqueueMessage, h id]

theorem quiet_enqueueTiles (app : App) (tiles : List FrameTile) :
    Quiet app (app.enqueueTiles tiles) :=
  quiet_of_windows_eq rfl rfl fun id => by simp [enqueueTiles]

theorem quiet_setToplevelActivation (app : App) (activeId : Option UInt64) :
    Quiet app (app.setToplevelActivation activeId) := by
  refine ⟨rfl, fun id window' hwindow' => ?_, fun _ => rfl⟩
  simp only [setToplevelActivation, Table.get?_mapValues] at hwindow'
  obtain ⟨window, hwindow, rfl⟩ := Option.map_eq_some_iff.1 hwindow'
  exact ⟨window, hwindow, rfl, rfl, rfl⟩

theorem quiet_focusWindow (app : App) (id : UInt64) : Quiet app (app.focusWindow id) := by
  unfold focusWindow
  split
  · exact Quiet.refl app
  · have hactive : Quiet app { app with activeWindowId := some id } :=
      quiet_of_windows_eq rfl rfl fun _ => rfl
    simp only
    split
    · exact hactive.trans (quiet_setToplevelActivation _ _)
    · exact hactive

theorem quiet_clearFocus (app : App) : Quiet app app.clearFocus := by
  unfold clearFocus
  split
  · exact Quiet.refl app
  · have hactive : Quiet app { app with activeWindowId := none } :=
      quiet_of_windows_eq rfl rfl fun _ => rfl
    exact hactive.trans (quiet_setToplevelActivation _ _)

/-- A window that is replaced by one of the same mode. -/
theorem quiet_setWindow {window window' : RemoteWindow} (h : app.windows.get? id = some window)
    (hsame : SameMode window' window) : Quiet app (app.setWindow id window') := by
  refine ⟨rfl, fun i w hw => ?_, fun _ => rfl⟩
  simp only [setWindow, Table.get?_insert] at hw
  split at hw
  · rename_i hi
    cases hw
    exact ⟨window, hi ▸ h, hsame⟩
  · exact ⟨w, hw, rfl, rfl, rfl⟩

theorem quiet_resizeRootWindow (app : App) (id : UInt64) (width height : UInt32) :
    Quiet app (app.resizeRootWindow id width height).1 := by
  unfold resizeRootWindow
  split
  · exact Quiet.refl app
  · rename_i window hwindow
    simp only
    split
    · exact Quiet.refl app
    · exact quiet_setWindow hwindow ⟨rfl, rfl, rfl⟩

theorem quiet_repaintMovedChildSurfaces {first : Bool}
    (h : app.repaintMovedChildSurfaces env id first = .ok app') : Quiet app app' := by
  obtain ⟨-, rfl⟩ | ⟨window, m, -, -, rfl⟩ := repaintMovedChildSurfaces_eq h
  · exact Quiet.refl _
  · exact (quiet_of_windows_eq rfl rfl fun _ => rfl :
      Quiet app { app with childSurfaceLastRect := m.lastRect }).trans (quiet_enqueueTiles _ _)

theorem quiet_cacheBuffer (app : App) (surface : ObjectId) (buffer : CommitBuffer) :
    Quiet app (app.cacheBuffer surface buffer) := by
  cases buffer <;> exact quiet_of_windows_eq rfl rfl fun _ => rfl

theorem quiet_commitRoot {surface : ObjectId} {tile : FrameTile}
    (h : app.commitRoot env surface id tile = .ok app') : Quiet app app' := by
  have hsize : Quiet app (app.updatePopupSize surface tile.w tile.h) :=
    quiet_of_windows_eq rfl rfl fun _ => rfl
  have hresize := hsize.trans (quiet_resizeRootWindow _ id tile.w tile.h)
  simp only [commitRoot] at h
  refine Quiet.trans (Quiet.trans ?_ (quiet_enqueueMessage _ fun _ => rfl))
    (quiet_repaintMovedChildSurfaces h)
  split
  · exact hresize.trans (quiet_enqueueMessage _ fun _ => rfl)
  · exact hresize

theorem quiet_commitChild {surface : ObjectId} {x y : Int32} {tile : FrameTile}
    (h : app.commitChild env surface id x y tile = .ok app') : Quiet app app' := by
  rw [commitChild_eq h]
  exact quiet_of_windows_eq rfl rfl fun id => by simp [enqueueTiles, updatePopupSize, echo]

theorem quiet_removePopupRouteForSurface (app : App) (key : ObjectId) :
    Quiet app (app.removePopupRouteForSurface key).1 := by
  unfold removePopupRouteForSurface
  split
  · exact Quiet.refl app
  · exact quiet_of_windows_eq rfl rfl fun _ => rfl

/-- Forgetting a surface and painting over it. -/
theorem quiet_forget (app : App) (key : ObjectId) (tiles : List FrameTile) :
    Quiet app (((app.removePopupRouteForSurface key).1.clearChildSurfaceTracking key).enqueueTiles
      tiles) :=
  (quiet_removePopupRouteForSurface app key).trans
    (quiet_of_windows_eq rfl rfl fun id => by simp [enqueueTiles, clearChildSurfaceTracking])

theorem quiet_commit {surface : ObjectId} {buffer : CommitBuffer} {damageCount : Nat}
    (h : app.commit env surface buffer damageCount = .ok app') : Quiet app app' := by
  have htrack (windowId : UInt64) : Quiet app (app.trackChild surface windowId) :=
    quiet_of_windows_eq rfl rfl fun _ => rfl
  cases commit_cases h with
  | dropped => exact Quiet.refl app
  | rootTile _ _ hcommit => exact (quiet_cacheBuffer app surface buffer).trans (quiet_commitRoot hcommit)
  | rootNone _ _ hrepaint =>
    exact (quiet_cacheBuffer app surface buffer).trans (quiet_repaintMovedChildSurfaces hrepaint)
  | rootError => exact quiet_cacheBuffer app surface buffer
  | childTile _ _ _ hcommit =>
    exact ((htrack _).trans (quiet_cacheBuffer _ surface buffer)).trans (quiet_commitChild hcommit)
  | childNone => exact (htrack _).trans (quiet_cacheBuffer _ surface buffer)
  | childRemoved _ _ _ hrepaint =>
    rw [repaintWindowFromCachedBuffer_eq hrepaint]
    exact ((htrack _).trans (quiet_cacheBuffer _ surface .removed)).trans (quiet_forget _ surface _)

theorem quiet_routePopup (app : App) (env : Env) (surface : ObjectId) (parent : Option ObjectId)
    (positioner : PositionerState) : Quiet app (app.routePopup env surface parent positioner).1 := by
  unfold routePopup
  split
  · exact Quiet.refl app
  · split
    · exact Quiet.refl app
    · exact quiet_of_windows_eq rfl rfl fun _ => rfl

theorem quiet_removeWindow (app : App) (surface : ObjectId) (id : UInt64) :
    Quiet app (app.removeWindow surface id) := by
  refine ⟨rfl, fun i window hwindow => ?_, fun _ => rfl⟩
  simp only [removeWindow, Table.get?_remove] at hwindow
  split at hwindow
  · cases hwindow
  · exact ⟨window, hwindow, rfl, rfl, rfl⟩

theorem quiet_toplevelDestroyed (app : App) (env : Env) (surface : ObjectId) :
    Quiet app (app.toplevelDestroyed env surface) := by
  unfold toplevelDestroyed
  split
  · exact Quiet.refl app
  · rename_i id _
    refine (quiet_removeWindow app surface id).trans
      (Quiet.trans ?_ (quiet_enqueueMessage _ fun _ => rfl))
    split
    · unfold focusNext
      split
      · exact quiet_focusWindow _ _
      · exact quiet_clearFocus _
    · exact Quiet.refl _

/-- Requests that only tell the viewer. -/
theorem quiet_forSurface {surface : ObjectId} {request : UInt64 → App}
    (h : ∀ id, Quiet app (request id)) : Quiet app (app.forSurface surface request) := by
  unfold forSurface
  split
  · exact Quiet.refl app
  · exact h _

theorem quiet_moveRequest (app : App) (env : Env) (surface : ObjectId) :
    Quiet app (app.moveRequest env surface) := by
  refine quiet_forSurface fun id => Quiet.trans ?_ (quiet_enqueueMessage _ fun _ => rfl)
  refine ⟨rfl, fun i window' hwindow' => ?_, fun _ => rfl⟩
  simp only [Table.get?_modify] at hwindow'
  split at hwindow'
  · rename_i hi
    obtain ⟨window, hwindow, rfl⟩ := Option.map_eq_some_iff.1 hwindow'
    exact ⟨window, hi ▸ hwindow, rfl, rfl, rfl⟩
  · exact ⟨window', hwindow', rfl, rfl, rfl⟩

/-- What `step_mode` says. -/
inductive ModeStep (app : App) (call : Call) : App → Prop
  | performed {id : UInt64} {r : ModeRequest} : app.modeRequest call = some (id, r) →
      ModeStep app call (app.perform call.env id r)
  | quiet {app' : App} : app.modeRequest call = none → Quiet app app' → ModeStep app call app'
  | created {surface : ObjectId} {title appId : String} : app.modeRequest call = none →
      call.event = .newToplevel surface title appId →
      ModeStep app call (app.newToplevel surface title appId)

/-- A request of a toplevel that has a window. -/
theorem modeStep_forSurface {call : Call} {surface : ObjectId} {r : ModeRequest}
    (h : app.modeRequest call = (app.surfaceToWindow.get? surface).map fun id => (id, r)) :
    ModeStep app call (app.forSurface surface (app.perform call.env · r)) := by
  unfold forSurface
  cases hid : app.surfaceToWindow.get? surface with
  | none => exact .quiet (by rw [h, hid]; rfl) (Quiet.refl app)
  | some id => exact .performed (by rw [h, hid]; rfl)

theorem modeStep_toggleMaximize (app : App) (env : Env) (id : UInt64) :
    ModeStep app { env, event := .input (.toggleMaximize id) } (app.toggleWindowMaximize env id) := by
  unfold toggleWindowMaximize
  cases hwindow : app.windows.get? id with
  | none => exact .quiet (by simp [modeRequest, hwindow]) (Quiet.refl app)
  | some window =>
    by_cases hmax : window.mode.isMaximized
    · simp only [hmax, if_true]
      exact .performed (r := .unmaximize false) (by simp [modeRequest, hwindow, hmax])
    · simp only [hmax, if_false, Bool.false_eq_true]
      exact .performed (r := .maximize) (by simp [modeRequest, hwindow, hmax])

theorem modeStep_handleInputEvent {event : InputEvent}
    (h : app.handleInputEvent env event = .ok app') :
    ModeStep app { env, event := .input event } app' := by
  cases event with
  | pointerMotion | close =>
    cases h
    exact .quiet rfl (Quiet.refl app)
  | pointerButton id | pointerScroll id | text id | preedit id =>
    cases h
    exact .quiet rfl (quiet_focusWindow app id)
  | key id keycode state =>
    simp only [handleInputEvent] at h
    split at h
    · cases h
      exact .quiet rfl (quiet_focusWindow app id)
    · cases h
  | focus id focused =>
    cases h
    refine .quiet rfl ?_
    split
    · exact quiet_focusWindow app id
    · unfold clearWindowFocus
      split
      · exact quiet_clearFocus app
      · exact Quiet.refl app
  | resize id width height =>
    cases h
    exact .performed (r := .resize width height) rfl
  | toggleMaximize id =>
    cases h
    exact modeStep_toggleMaximize app env id
  | setFullscreen id fullscreen =>
    cases h
    cases fullscreen with
    | true => exact .performed (r := .fullscreen) rfl
    | false => exact .performed (r := .unfullscreen false) rfl

/-- **A callback carries out one request, or makes a new window, or leaves all modes alone.** -/
theorem step_mode {call : Call} (h : app.step call = .ok app') : ModeStep app call app' := by
  obtain ⟨env, event⟩ := call
  cases event with
  | newToplevel surface title appId =>
    cases h
    exact .created rfl rfl
  | newPopup surface parent positioner | repositionRequest surface parent positioner =>
    cases h
    exact .quiet rfl (quiet_routePopup app env surface parent positioner)
  | commit surface buffer damageCount => exact .quiet rfl (quiet_commit h)
  | destroyed surface | popupDestroyed surface =>
    rw [forgetSurface_eq h]
    exact .quiet rfl (quiet_forget app surface _)
  | toplevelDestroyed surface =>
    cases h
    exact .quiet rfl (quiet_toplevelDestroyed app env surface)
  | bufferDestroyed buffer =>
    cases h
    exact .quiet rfl (quiet_of_windows_eq rfl rfl fun _ => rfl)
  | moveRequest surface =>
    cases h
    exact .quiet rfl (quiet_moveRequest app env surface)
  | maximizeRequest surface =>
    cases h
    by_cases hgtk : env.gtkWmRequestsEnabled
    · simp only [maximizeRequest, hgtk, Bool.not_true, Bool.false_eq_true, if_false]
      exact modeStep_forSurface (r := .maximize) (by simp [modeRequest, hgtk])
    · simp only [maximizeRequest, hgtk, Bool.not_false, if_true]
      exact .quiet (by simp [modeRequest, hgtk]) (Quiet.refl app)
  | unmaximizeRequest surface =>
    cases h
    by_cases hgtk : env.gtkWmRequestsEnabled
    · simp only [unmaximizeRequest, hgtk, Bool.not_true, Bool.false_eq_true, if_false]
      exact modeStep_forSurface (r := .unmaximize true) (by simp [modeRequest, hgtk])
    · simp only [unmaximizeRequest, hgtk, Bool.not_false, if_true]
      exact .quiet (by simp [modeRequest, hgtk]) (Quiet.refl app)
  | fullscreenRequest surface =>
    cases h
    exact modeStep_forSurface (r := .fullscreen) rfl
  | unfullscreenRequest surface =>
    cases h
    exact modeStep_forSurface (r := .unfullscreen true) rfl
  | minimizeRequest surface | titleChanged surface =>
    cases h
    exact .quiet rfl (quiet_forSurface fun _ => quiet_enqueueMessage app fun _ => rfl)
  | input event => exact modeStep_handleInputEvent h

theorem windows_newToplevel {surface : ObjectId} {title appId : String} {i : UInt64}
    {window : RemoteWindow}
    (h : (app.newToplevel surface title appId).windows.get? i = some window) :
    (i = app.nextWindowId ∧ window.mode = .normal ∧ window.toplevel.maximized = false ∧
        window.toplevel.fullscreen = false) ∨
      ∃ old, i ≠ app.nextWindowId ∧ app.windows.get? i = some old ∧ SameMode window old := by
  obtain ⟨old, hold, hsame⟩ := (quiet_focusWindow _ app.nextWindowId).windows i window h
  simp only [Table.get?_insert] at hold
  split at hold
  · rename_i hi
    cases hold
    exact .inl ⟨hi, hsame.mode, hsame.maximized, hsame.fullscreen⟩
  · rename_i hi
    exact .inr ⟨old, hi, hold, hsame⟩

end App

/-! ## Flags and restore sizes -/

def WindowMode.restoreSize : WindowMode → Option Size
  | .normal => none
  | .maximized restoreSize => some restoreSize
  | .fullscreen restoreSize => some restoreSize

/-- Not empty, and no larger than the output, where an output without an extent counts as one. -/
def Inside (outputSize size : Size) : Prop :=
  1 ≤ size.1 ∧ size.1 ≤ (nonzeroSize outputSize).1 ∧ 1 ≤ size.2 ∧ size.2 ≤ (nonzeroSize outputSize).2

instance (outputSize size : Size) : Decidable (Inside outputSize size) :=
  inferInstanceAs (Decidable (_ ∧ _))

structure ModeConsistent (maxOutputSize : Size) (window : RemoteWindow) : Prop where
  maximized : window.toplevel.maximized = window.mode.isMaximized
  fullscreen : window.toplevel.fullscreen = window.mode.isFullscreen
  restore : ∀ size, window.mode.restoreSize = some size → Inside maxOutputSize size

/-- A size of at least one on each axis. -/
theorem nonzeroSize_inside {outputSize size : Size} (h1 : size.1 ≤ (nonzeroSize outputSize).1)
    (h2 : size.2 ≤ (nonzeroSize outputSize).2) : Inside outputSize (nonzeroSize size) := by
  have hone : (1 : UInt32).toNat = 1 := rfl
  simp only [Inside, nonzeroSize, UInt32.le_iff_toNat_le, toNat_max, hone] at h1 h2 ⊢
  omega

theorem nonzeroSize_nonzeroSize (size : Size) : nonzeroSize (nonzeroSize size) = nonzeroSize size := by
  have hmax (n : UInt32) : max (max n 1) 1 = max n 1 := by
    apply UInt32.toNat_inj.1
    simp only [toNat_max]
    omega
  simp only [nonzeroSize, hmax]

theorem defaultRestoreSize_inside (outputSize : Size) :
    Inside outputSize (defaultRestoreSize outputSize) := by
  have hscale (n : UInt32) : UInt32.ofNat (min (max (n.toNat * 7 / 10) 1) n.toNat) ≤ n := by
    have hle := Nat.min_le_right (max (n.toNat * 7 / 10) 1) n.toNat
    rw [UInt32.le_iff_toNat_le, UInt32.toNat_ofNat', Nat.mod_eq_of_lt (hle.trans_lt n.toNat_lt)]
    exact hle
  exact nonzeroSize_inside (hscale _) (hscale _)

theorem restoreSizeForModeEntry_inside (currentSize outputSize : Size) :
    Inside outputSize (nonzeroSize (restoreSizeForModeEntry currentSize outputSize)) := by
  have hdefault := defaultRestoreSize_inside (nonzeroSize outputSize)
  rw [Inside, nonzeroSize_nonzeroSize] at hdefault
  simp only [restoreSizeForModeEntry]
  split
  · exact nonzeroSize_inside hdefault.2.1 hdefault.2.2.2
  · refine nonzeroSize_inside ?_ ?_
    · rw [UInt32.le_iff_toNat_le, toNat_min]
      omega
    · rw [UInt32.le_iff_toNat_le, toNat_min]
      omega

/-- Entering a mode stores a size inside the output. -/
theorem inside_of_entry {currentSize outputSize size : Size}
    (h : some (nonzeroSize (restoreSizeForModeEntry currentSize outputSize)) = some size) :
    Inside outputSize size :=
  Option.some.inj h ▸ restoreSizeForModeEntry_inside currentSize outputSize

/-- A configure event with the flags of the mode. -/
theorem ModeConsistent.configure {maxOutputSize : Size} {window : RemoteWindow}
    (h : ModeConsistent maxOutputSize window) (size : Size) {maximized fullscreen : Bool}
    (hmaximized : maximized = window.mode.isMaximized)
    (hfullscreen : fullscreen = window.mode.isFullscreen) :
    ModeConsistent maxOutputSize (window.configure size maximized fullscreen) :=
  ⟨hmaximized, hfullscreen, h.restore⟩

theorem ModeConsistent.apply {maxOutputSize : Size} {window : RemoteWindow}
    (h : ModeConsistent maxOutputSize window) (now : Nat) (r : ModeRequest) :
    ModeConsistent maxOutputSize (r.apply maxOutputSize now window).1 := by
  have hnone : ∀ size, (none : Option Size) = some size → Inside maxOutputSize size :=
    fun _ hsize => nomatch hsize
  cases r with
  | resize width height =>
    simp only [ModeRequest.apply]
    split
    · exact h
    · exact ⟨rfl, rfl, hnone⟩
  | maximize =>
    simp only [ModeRequest.apply]
    split
    · rename_i restoreSize hmode
      split
      · exact h
      · exact h.configure _ (by rw [hmode]; rfl) (by rw [hmode]; rfl)
    · exact ⟨rfl, rfl, fun _ => inside_of_entry⟩
  | unmaximize suppress =>
    simp only [ModeRequest.apply]
    split
    · exact ⟨h.maximized, h.fullscreen, h.restore⟩
    · split
      · rename_i restoreSize hmode
        refine ⟨rfl, ?_, hnone⟩
        -- a maximized window has no `Fullscreen` flag to be left behind
        simpa [RemoteWindow.configure, hmode, WindowMode.isFullscreen] using h.fullscreen
      · exact h
  | fullscreen =>
    simp only [ModeRequest.apply]
    split
    · rename_i restoreSize hmode
      split
      · exact h
      · exact h.configure _ (by rw [hmode]; rfl) (by rw [hmode]; rfl)
    · exact ⟨rfl, rfl, fun _ => inside_of_entry⟩
  | unfullscreen suppress =>
    simp only [ModeRequest.apply]
    split
    · exact ⟨h.maximized, h.fullscreen, h.restore⟩
    · split
      · rename_i restoreSize hmode
        refine ⟨?_, rfl, hnone⟩
        simpa [RemoteWindow.configure, hmode, WindowMode.isMaximized] using h.maximized
      · exact h

theorem ModeConsistent.of_sameMode {maxOutputSize : Size} {window window' : RemoteWindow}
    (h : ModeConsistent maxOutputSize window) (hsame : App.SameMode window' window) :
    ModeConsistent maxOutputSize window' :=
  ⟨by rw [hsame.maximized, hsame.mode, h.maximized],
    by rw [hsame.fullscreen, hsame.mode, h.fullscreen], by rw [hsame.mode]; exact h.restore⟩

namespace App

variable {app app' : App}

/-- Every window of the session is consistent. -/
structure ModesOk (maxOutputSize : Size) (app : App) : Prop where
  output : app.maxOutputSize = maxOutputSize
  windows : ∀ id window, app.windows.get? id = some window → ModeConsistent maxOutputSize window

theorem ModesOk.step {maxOutputSize : Size} (hok : ModesOk maxOutputSize app) {call : Call}
    (h : app.step call = .ok app') : ModesOk maxOutputSize app' := by
  cases step_mode h with
  | @performed id r _ =>
    cases hwindow : app.windows.get? id with
    | none =>
      rw [perform_of_none hwindow]
      exact hok
    | some window =>
      have hspec := perform_spec hwindow call.env r
      refine ⟨by rw [hspec.rest]; exact hok.output, fun i window' hwindow' => ?_⟩
      rw [hspec.windows] at hwindow'
      split at hwindow'
      · cases hwindow'
        rw [hok.output]
        exact (hok.windows id window hwindow).apply call.env.now r
      · exact hok.windows i window' hwindow'
  | quiet _ hquiet =>
    refine ⟨hquiet.maxOutputSize.trans hok.output, fun i window' hwindow' => ?_⟩
    obtain ⟨window, hwindow, hsame⟩ := hquiet.windows i window' hwindow'
    exact (hok.windows i window hwindow).of_sameMode hsame
  | @created surface title appId _ _ =>
    refine ⟨(quiet_focusWindow _ _).maxOutputSize.trans hok.output,
      fun i window' hwindow' => ?_⟩
    obtain ⟨-, hmode, hmax, hfull⟩ | ⟨old, -, hold, hsame⟩ := windows_newToplevel hwindow'
    · refine ⟨by rw [hmax, hmode]; rfl, by rw [hfull, hmode]; rfl, fun _ hsize => ?_⟩
      rw [hmode] at hsize
      cases hsize
    · exact (hok.windows i old hold).of_sameMode hsame

/-- A request to enter the mode a window is in leaves the mode as it is. -/
theorem mode_iterate {enter : App → App} {inMode : WindowMode → Bool} {id : UInt64}
    (hstep : ∀ app window, app.windows.get? id = some window → inMode window.mode →
      ∃ window', (enter app).windows.get? id = some window' ∧ window'.mode = window.mode)
    {window : RemoteWindow} (hwindow : app.windows.get? id = some window)
    (hmode : inMode window.mode) (n : Nat) :
    ∃ window', (enter^[n] app).windows.get? id = some window' ∧ window'.mode = window.mode := by
  induction n with
  | zero => exact ⟨window, hwindow, rfl⟩
  | succ n ih =>
    obtain ⟨window₁, hwindow₁, hmode₁⟩ := ih
    obtain ⟨window₂, hwindow₂, hmode₂⟩ := hstep _ window₁ hwindow₁ (hmode₁ ▸ hmode)
    rw [Function.iterate_succ_apply']
    exact ⟨window₂, hwindow₂, hmode₂.trans hmode₁⟩

theorem mode_maximize {id : UInt64} {window : RemoteWindow}
    (hwindow : app.windows.get? id = some window) (hmode : window.mode.isMaximized) :
    ∃ window', (app.requestWindowMaximizeById id).windows.get? id = some window' ∧
      window'.mode = window.mode := by
  refine ⟨(ModeRequest.apply app.maxOutputSize 0 window .maximize).1, ?_, ?_⟩
  · rw [(perform_maximize hwindow 0).windows, if_pos rfl]
  · cases hm : window.mode with
    | normal => rw [hm] at hmode; cases hmode
    | fullscreen restoreSize => rw [hm] at hmode; cases hmode
    | maximized restoreSize =>
      simp only [ModeRequest.apply, hm]
      split
      · exact hm
      · exact hm

theorem mode_fullscreen {id : UInt64} {window : RemoteWindow}
    (hwindow : app.windows.get? id = some window) (hmode : window.mode.isFullscreen) :
    ∃ window', (app.requestWindowFullscreenById id).windows.get? id = some window' ∧
      window'.mode = window.mode := by
  refine ⟨(ModeRequest.apply app.maxOutputSize 0 window .fullscreen).1, ?_, ?_⟩
  · rw [(perform_fullscreen hwindow 0).windows, if_pos rfl]
  · cases hm : window.mode with
    | normal => rw [hm] at hmode; cases hmode
    | maximized restoreSize => rw [hm] at hmode; cases hmode
    | fullscreen restoreSize =>
      simp only [ModeRequest.apply, hm]
      split
      · exact hm
      · exact hm

/-- **Modes are consistent in every state of a session**, whatever the size of the output: the flags
of the `xdg_toplevel` are those of the mode, restore sizes are inside the output, and entering a mode
again leaves the restore size alone. -/
theorem mode_consistent (req : ViewRequest) (maxOutputSize : Size) (calls : List Call) (app : App)
    (hrun : { start req with maxOutputSize }.run calls = .ok app) :
    (∀ id window, app.windows.get? id = some window → ModeConsistent maxOutputSize window) ∧
    (∀ id window n, app.windows.get? id = some window → window.mode.isMaximized →
      ∃ window', ((requestWindowMaximizeById · id)^[n] app).windows.get? id = some window' ∧
        window'.mode = window.mode) ∧
    (∀ id window n, app.windows.get? id = some window → window.mode.isFullscreen →
      ∃ window', ((requestWindowFullscreenById · id)^[n] app).windows.get? id = some window' ∧
        window'.mode = window.mode) := by
  have hstart : ModesOk maxOutputSize { start req with maxOutputSize } :=
    ⟨rfl, fun _ _ hwindow => nomatch hwindow⟩
  have hok : ModesOk maxOutputSize app :=
    foldlM_invariant (fun _ _ _ hok h => hok.step h) hstart hrun
  refine ⟨hok.windows, fun id window n hwindow hmode => ?_, fun id window n hwindow hmode => ?_⟩
  · exact mode_iterate (fun _ _ => mode_maximize) hwindow hmode n
  · exact mode_iterate (fun _ _ => mode_fullscreen) hwindow hmode n

/-- No subsurfaces, no buffers, and time stands still. -/
def bareEnv : Env :=
  { ancestors := fun _ => [], ancestors_tail := fun _ _ _ h => (nomatch h), location := fun _ => (0, 0),
    shm := fun _ => none, windowOrder := [], surfaceOrder := [], now := 0,
    gtkWmRequestsEnabled := false }

/-- Requests of the host. -/
def hostCalls (events : List InputEvent) : List Call :=
  events.map fun event => { env := bareEnv, event := .input event }

theorem mode_consistent_toggled :
    ∃ app, { start ⟨"vbox", 640, 480⟩ with maxOutputSize := (640, 0) }.run
        ({ env := bareEnv, event := .newToplevel 0 "" "" } ::
          hostCalls [.toggleMaximize 1, .setFullscreen 1 true]) = .ok app ∧
      (app.windows.get? 1).map (·.mode) = some (.fullscreen (448, 1)) ∧
      ∀ window, app.windows.get? 1 = some window → ModeConsistent (640, 0) window := by
  refine ⟨_, rfl, rfl, ?_⟩
  exact (mode_consistent ⟨"vbox", 640, 480⟩ (640, 0) ({ env := bareEnv, event := .newToplevel 0 "" "" } ::
    hostCalls [.toggleMaximize 1, .setFullscreen 1 true]) _ rfl).1 1

/-! ## Echoes -/

/-- What the viewer was told last about a window is its mode, where having been told nothing means
that it is not fullscreen. -/
def Echoes (id : UInt64) (app : App) : Prop :=
  ∀ window, app.windows.get? id = some window →
    (lastEcho app.tx id).getD false = window.mode.isFullscreen

/-- A window that is fullscreen is not maximized. -/
def AllowsMode (id : UInt64) (app : App) (call : Call) : Prop :=
  app.modeRequest call = some (id, .maximize) →
    ∀ window, app.windows.get? id = some window → ¬ window.mode.isFullscreen

/-- A request other than to maximize tells what it does, or does nothing. -/
theorem apply_echo (maxOutputSize : Size) (now : Nat) (window : RemoteWindow) {r : ModeRequest}
    (hr : r ≠ .maximize) :
    (r.apply maxOutputSize now window).1.mode.isFullscreen =
      (r.apply maxOutputSize now window).2.getD window.mode.isFullscreen := by
  cases r with
  | resize width height =>
    simp only [ModeRequest.apply]
    split
    · simp
    · cases hmode : window.mode <;> simp [RemoteWindow.configure, WindowMode.isFullscreen]
  | maximize => exact absurd rfl hr
  | unmaximize suppress =>
    simp only [ModeRequest.apply]
    split
    · simp
    · cases hmode : window.mode <;> simp [RemoteWindow.configure, WindowMode.isFullscreen, hmode]
  | fullscreen =>
    simp only [ModeRequest.apply]
    cases hmode : window.mode with
    | normal | maximized => simp [RemoteWindow.configure, WindowMode.isFullscreen]
    | fullscreen restoreSize =>
      by_cases hsize : window.size = nonzeroSize maxOutputSize <;>
        simp [hsize, RemoteWindow.configure, WindowMode.isFullscreen, hmode]
  | unfullscreen suppress =>
    simp only [ModeRequest.apply]
    split
    · simp
    · cases hmode : window.mode <;> simp [RemoteWindow.configure, WindowMode.isFullscreen, hmode]

/-- To maximize is to leave fullscreen in silence. -/
theorem apply_maximize (maxOutputSize : Size) (now : Nat) (window : RemoteWindow) :
    (ModeRequest.apply maxOutputSize now window .maximize).1.mode.isFullscreen = false ∧
      (ModeRequest.apply maxOutputSize now window .maximize).2 = none := by
  simp only [ModeRequest.apply]
  cases hmode : window.mode with
  | normal | fullscreen => simp [RemoteWindow.configure, WindowMode.isFullscreen]
  | maximized restoreSize =>
    by_cases hsize : window.size = nonzeroSize maxOutputSize <;>
      simp [hsize, RemoteWindow.configure, WindowMode.isFullscreen, hmode]

theorem Performed.echoes {id : UInt64} {window : RemoteWindow} {told : Option Bool}
    (h : Performed app app' id window told) (i : UInt64) :
    echoes app'.tx i = App.echoes app.tx i ++ if i = id then told.toList else [] := by
  rw [h.tx]
  cases told with
  | none => simp [App.echoes]
  | some fullscreen =>
    by_cases hi : i = id
    · subst hi
      simp [App.echo]
    · simp [App.echo, hi, Ne.symm hi]

/-- What a callback does to one window, as long as it neither maximizes it nor makes a new one: the
viewer is told the mode that the window has afterwards, or nothing changes. -/
theorem step_echo {id : UInt64} {call : Call}
    (hnew : ∀ surface title appId, call.event ≠ .newToplevel surface title appId)
    (hmax : app.modeRequest call ≠ some (id, .maximize)) (h : app.step call = .ok app') :
    ∃ told : Option Bool, echoes app'.tx id = echoes app.tx id ++ told.toList ∧
      ∀ window', app'.windows.get? id = some window' →
        ∃ window, app.windows.get? id = some window ∧
          window'.mode.isFullscreen = told.getD window.mode.isFullscreen ∧
          ∀ r, app.modeRequest call = some (id, r) →
            told = (r.apply app.maxOutputSize call.env.now window).2 := by
  cases step_mode h with
  | @performed target r hrequest =>
    cases hwindow : app.windows.get? target with
    | none =>
      rw [perform_of_none hwindow]
      refine ⟨none, by simp, fun window' hwindow' => ⟨window', hwindow', rfl, fun r' hr' => ?_⟩⟩
      rw [hrequest] at hr'
      cases hr'
      rw [hwindow] at hwindow'
      cases hwindow'
    | some window =>
      have hspec := perform_spec hwindow call.env r
      by_cases htarget : id = target
      · subst htarget
        have hr : r ≠ .maximize := fun hr => hmax (hr ▸ hrequest)
        refine ⟨_, by rw [hspec.echoes, if_pos rfl], fun window' hwindow' => ?_⟩
        rw [hspec.windows, if_pos rfl] at hwindow'
        cases hwindow'
        refine ⟨window, hwindow, apply_echo _ _ window hr, fun r' hr' => ?_⟩
        rw [hrequest] at hr'
        cases hr'
        rfl
      · refine ⟨none, by rw [hspec.echoes, if_neg htarget]; rfl, fun window' hwindow' => ?_⟩
        rw [hspec.windows, if_neg htarget] at hwindow'
        refine ⟨window', hwindow', rfl, fun r' hr' => ?_⟩
        rw [hrequest] at hr'
        cases hr'
        exact absurd rfl htarget
  | quiet hrequest hquiet =>
    refine ⟨none, by simp [hquiet.echoes], fun window' hwindow' => ?_⟩
    obtain ⟨window, hwindow, hsame⟩ := hquiet.windows id window' hwindow'
    refine ⟨window, hwindow, by simp [hsame.mode], fun r hr => ?_⟩
    rw [hrequest] at hr
    cases hr
  | created _ hevent => exact absurd hevent (hnew _ _ _)

theorem echoes_step {id : UInt64} {call : Call}
    (hnew : ∀ surface title appId, call.event ≠ .newToplevel surface title appId)
    (hecho : Echoes id app) (h : app.step call = .ok app') :
    Echoes id app' ↔ AllowsMode id app call := by
  by_cases hmax : app.modeRequest call = some (id, .maximize)
  · cases step_mode h with
    | performed hrequest =>
      rw [hmax] at hrequest
      cases hrequest
      cases hwindow : app.windows.get? id with
      | none =>
        rw [perform_of_none hwindow]
        refine iff_of_true hecho fun _ window hsome => ?_
        rw [hwindow] at hsome
        cases hsome
      | some window =>
        have hspec := perform_spec hwindow call.env .maximize
        have htold := hecho window hwindow
        obtain ⟨hmode, hsilent⟩ := apply_maximize app.maxOutputSize call.env.now window
        have hlast : lastEcho (app.perform call.env id .maximize).tx id = lastEcho app.tx id := by
          rw [lastEcho, hspec.echoes, if_pos rfl, hsilent, Option.toList_none, List.append_nil, lastEcho]
        simp [Echoes, AllowsMode, hmax, hspec.windows, hlast, hmode, hwindow, htold]
    | quiet hrequest => rw [hmax] at hrequest; cases hrequest
    | created hrequest => rw [hmax] at hrequest; cases hrequest
  · refine iff_of_true (fun window' hwindow' => ?_) fun h => absurd h hmax
    obtain ⟨told, htx, hwindows⟩ := step_echo hnew hmax h
    obtain ⟨window, hwindow, hmode, -⟩ := hwindows window' hwindow'
    rw [lastEcho_of_echoes htx, hmode]
    cases told with
    | none => exact hecho window hwindow
    | some fullscreen => rfl

/-- Requests for a mode never fail. -/
theorem modeRequest_of_error {call : Call} {fault : Fault} (h : app.step call = .error fault) :
    app.modeRequest call = none := by
  obtain ⟨env, event⟩ := call
  cases event with
  | input event =>
    cases event with
    | key => rfl
    | _ => cases h
  | commit | destroyed | popupDestroyed => rfl
  | _ => cases h

@[simp] theorem tx_focusWindow (app : App) (id : UInt64) : (app.focusWindow id).tx = app.tx := by
  unfold focusWindow
  split
  · rfl
  · simp only
    split <;> rfl

theorem lastEcho_newToplevel (app : App) (surface : ObjectId) (title appId : String) :
    lastEcho ({ app with tx := [] }.newToplevel surface title appId).tx app.nextWindowId = none := by
  simp [newToplevel, enqueueMessage, lastEcho, echoes, echo]

theorem echoes_newToplevel (app : App) (surface : ObjectId) (title appId : String) :
    Echoes app.nextWindowId ({ app with tx := [] }.newToplevel surface title appId) := by
  intro window hwindow
  have htold := lastEcho_newToplevel app surface title appId
  obtain ⟨-, hmode, -⟩ | ⟨old, hne, -⟩ := windows_newToplevel hwindow
  · rw [htold, hmode]
    rfl
  · exact absurd rfl hne

/-- **The last `FullscreenChanged` is the mode of the window, all along its life, exactly when it is
never maximized while it is fullscreen.** The session starts with a new toplevel and any tables. -/
theorem echoes_iff (app : App) (surface : ObjectId) (title appId : String) (calls : List Call)
    (hnew : ∀ call ∈ calls, ∀ surface title appId,
      call.event ≠ .newToplevel surface title appId) :
    (∀ past app', past <+: calls →
        ({ app with tx := [] }.newToplevel surface title appId).run past = .ok app' →
        Echoes app.nextWindowId app') ↔
      ∀ past call app', past ++ [call] <+: calls →
        ({ app with tx := [] }.newToplevel surface title appId).run past = .ok app' →
        AllowsMode app.nextWindowId app' call := by
  refine Runs.forall_prefix_iff_of_ok (echoes_newToplevel app surface title appId)
    (fun call hcall _ _ hecho h => echoes_step (hnew call hcall) hecho h)
    fun call _ app' fault h hmax => ?_
  rw [modeRequest_of_error h] at hmax
  cases hmax

theorem echoes_fullscreen_resize :
    ∃ app, ((start ⟨"vbox", 640, 480⟩).newToplevel 0 "" "").run
        (hostCalls [.setFullscreen 1 true, .resize 1 300 200]) = .ok app ∧ Echoes 1 app := by
  refine ⟨_, rfl, ?_⟩
  refine (echoes_iff (start ⟨"vbox", 640, 480⟩) 0 "" ""
    (hostCalls [.setFullscreen 1 true, .resize 1 300 200]) ?_).2 ?_ _ _ (List.prefix_refl _) rfl
  · simp [hostCalls]
  · intro past call app' hpre _ hmax
    have hmem := hpre.subset (List.mem_append_right past List.mem_cons_self)
    simp only [hostCalls, List.map_cons, List.map_nil, List.mem_cons, List.not_mem_nil,
      or_false] at hmem
    obtain rfl | rfl := hmem
    · cases hmax
    · cases hmax

/-- A fullscreen window is maximized from the host: it is not fullscreen any more, and the viewer
has last been told that it is. -/
theorem maximized_without_echo :
    ∃ app, ((start ⟨"vbox", 640, 480⟩).newToplevel 0 "" "").run
        (hostCalls [.setFullscreen 1 true, .toggleMaximize 1]) = .ok app ∧
      (app.windows.get? 1).map (·.mode) = some (.maximized (448, 336)) ∧
      lastEcho app.tx 1 = some true ∧ ¬ Echoes 1 app := by
  refine ⟨_, rfl, rfl, rfl, fun hecho => ?_⟩
  exact absurd (hecho _ rfl) (by decide)

end App
end VBox.Compositor
