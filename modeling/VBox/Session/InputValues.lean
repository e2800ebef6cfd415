import VBox.Session.Pointer
import VBox.Session.TextInput

/-!
# Session.InputValues

Which numbers the handlers of input events pass on (`handle_input_event` and what it calls in
`crates/server/src/wayland_session/mod.rs`). The host sends `u32`s, and smithay gets `i32`s and
keycodes.

* `Traced.handleInputEvent`: the handlers, with each number they pass on. Where no arithmetic panics
  they do what `handleInputEvent` says (`Traced.handleInputEvent_app`).
* `WindowSizes`: a window has the size of a tile, in every state of a session.
* `input_values_iff`: for which events every number is as it should be.
-/

namespace VBox.Compositor

open Raster

/-- A size, `as i32`. -/
def asI32 (size : Size) : Int32 × Int32 := (size.1.toInt32, size.2.toInt32)

/-- What a handler passes on: the keycode of XKB, the size of a configure event, of the output or to
restore, and where the pointer goes. -/
inductive InputEffect where
  | key (keycode : UInt32)
  | configure (size : Int32 × Int32)
  | outputMode (size : Int32 × Int32)
  | restore (size : Size)
  | motion (id : UInt64) (x y : Int32) (target : PointerTarget)
  deriving DecidableEq

inductive InputPanic where
  | fault (fault : Fault)
  | clamp (panic : ClampPanic)
  deriving DecidableEq

namespace Traced

/-- The new state, and what was passed on. -/
abbrev Handled := App × List InputEffect

def keyboardKey (app : App) (id : UInt64) (keycode : UInt32) : Except InputPanic Handled :=
  let app := app.focusWindow id
  if keycode.toNat + 8 < 2 ^ 32 then .ok (app, [.key (keycode + 8)])
  else .error (.fault .overflow)

/-- The keys of a text, one after another. -/
def keyboardKeys (app : App) (id : UInt64) : List (UInt32 × InputKeyState) → Except InputPanic Handled
  | [] => .ok (app, [])
  | (keycode, _) :: rest => do
    let (app, effects) ← keyboardKey app id keycode
    let (app, more) ← keyboardKeys app id rest
    return (app, effects ++ more)

def synthesizeAsciiText (app : App) (id : UInt64) (text : String) : Except InputPanic Handled :=
  keyboardKeys app id (text.toList.filterMap characterKeys).flatten

/-- `delivery` is what `commit_text_input` answers. -/
def injectText (app : App) (delivery : TextInputDelivery) (id : UInt64) (text : String) :
    Except InputPanic Handled :=
  let app := app.focusWindow id
  match delivery with
  | .sent => .ok (app, [])
  | .waitingForEnable => synthesizeAsciiText app id text
  | .unavailable => synthesizeAsciiText app id text

def pointerMotion (app : App) (id : UInt64) (x y : Int32) : Except InputPanic Handled :=
  match app.pointerTargetAt id x y with
  | .error panic => .error (.clamp panic)
  | .ok none => .ok (app, [])
  | .ok (some target) => .ok (app, [.motion id x y target])

def setOutputSize (app : App) (size : Size) : Handled :=
  let size := nonzeroSize size
  if app.outputSize = size then (app, [])
  else ({ app with outputSize := size }, [.outputMode (asI32 size)])

def requestWindowResize (app : App) (id : UInt64) (width height : UInt32) : Handled :=
  match app.windows.get? id with
  | none => (app, [])
  | some window =>
    let requestedSize := nonzeroSize (width, height)
    let wasMaximized := window.mode.isMaximized
    let wasFullscreen := window.mode.isFullscreen
    if window.size = requestedSize ∧ !wasMaximized ∧ !wasFullscreen then (app, [])
    else
      let (app, output) := setOutputSize app requestedSize
      let app := app.setWindow id
        ({ window with mode := .normal }.configure requestedSize false false)
      let app :=
        if wasFullscreen then app.enqueueMessage (.windowEvent (.fullscreenChanged id false))
        else app
      (app, output ++ [.configure (asI32 requestedSize)])

/-- `enter_maximized` and `enter_fullscreen` store nothing in a window that has the mode. -/
def enter (entered : Bool) (restoreSize : Size) : List InputEffect :=
  if entered then [] else [.restore (nonzeroSize restoreSize)]

def requestWindowMaximizeById (app : App) (id : UInt64) : Handled :=
  let target := nonzeroSize app.maxOutputSize
  match app.windows.get? id with
  | none => (app, [])
  | some window =>
    if window.mode.isMaximized ∧ window.size = target then (app, [])
    else
      let restoreSize :=
        match window.mode with
        | .maximized restoreSize => restoreSize
        | _ => restoreSizeForModeEntry window.size app.maxOutputSize
      (app.setWindow id
        ({ window with mode := window.mode.enterMaximized restoreSize }.configure target true false),
        enter window.mode.isMaximized restoreSize ++ [.configure (asI32 target)])

def requestWindowUnmaximizeById (app : App) (env : Env) (id : UInt64) (suppressRecentMove : Bool) :
    Handled :=
  match app.windows.get? id with
  | none => (app, [])
  | some window =>
    if suppressRecentMove ∧ window.inGrace env.now then
      (app.setWindow id { window with lastMoveRequestAt := none }, [])
    else
      match window.mode.leaveMaximized with
      | (_, none) => (app, [])
      | (mode, some target) =>
        (app.setWindow id
          ({ window with mode }.configure target false window.toplevel.fullscreen),
          [.configure (asI32 target)])

def toggleWindowMaximize (app : App) (env : Env) (id : UInt64) : Handled :=
  match app.windows.get? id with
  | none => (app, [])
  | some window =>
    if window.mode.isMaximized then requestWindowUnmaximizeById app env id false
    else requestWindowMaximizeById app id

def requestWindowFullscreenById (app : App) (id : UInt64) : Handled :=
  let target := nonzeroSize app.maxOutputSize
  match app.windows.get? id with
  | none => (app, [])
  | some window =>
    let restoreSize :=
      match window.mode with
      | .fullscreen restoreSize => restoreSize
      | _ => restoreSizeForModeEntry window.size app.maxOutputSize
    let alreadyAligned := window.mode.isFullscreen ∧ window.size = target
    let (app, effects) : Handled :=
      if alreadyAligned then (app, [])
      else
        (app.setWindow id
          ({ window with mode := window.mode.enterFullscreen restoreSize }.configure target false
            true),
          enter window.mode.isFullscreen restoreSize ++ [.configure (asI32 target)])
    (app.enqueueMessage (.windowEvent (.fullscreenChanged id true)), effects)

def requestWindowUnfullscreenById (app : App) (env : Env) (id : UInt64)
    (suppressRecentMove : Bool) : Handled :=
  match app.windows.get? id with
  | none => (app, [])
  | some window =>
    if suppressRecentMove ∧ window.inGrace env.now then
      (app.setWindow id { window with lastMoveRequestAt := none }, [])
    else
      let (app, effects) : Handled :=
        match window.mode.leaveFullscreen with
        | (_, none) => (app, [])
        | (mode, some target) =>
          (app.setWindow id
            ({ window with mode }.configure target window.toplevel.maximized false),
            [.configure (asI32 target)])
      (app.enqueueMessage (.windowEvent (.fullscreenChanged id false)), effects)

def setWindowFullscreen (app : App) (env : Env) (id : UInt64) (fullscreen : Bool) : Handled :=
  if fullscreen then requestWindowFullscreenById app id
  else requestWindowUnfullscreenById app env id false

/-- An activation sends the sizes that are pending again, and a scroll is in floating point, where
`as i32` saturates. -/
def handleInputEvent (app : App) (env : Env) (delivery : TextInputDelivery) :
    InputEvent → Except InputPanic Handled
  | .pointerMotion id x y => pointerMotion app id x y
  | .pointerButton id _ _ => .ok (app.focusWindow id, [])
  | .pointerScroll id _ _ => .ok (app.focusWindow id, [])
  | .key id keycode _ => keyboardKey app id keycode
  | .text id text => injectText app delivery id text
  | .focus id focused =>
    .ok (if focused then app.focusWindow id else app.clearWindowFocus id, [])
  | .resize id width height => .ok (requestWindowResize app id width height)
  | .toggleMaximize id => .ok (toggleWindowMaximize app env id)
  | .setFullscreen id fullscreen => .ok (setWindowFullscreen app env id fullscreen)
  | .close _ => .ok (app, [])
  | .preedit id _ _ _ => .ok (app.focusWindow id, [])

/-! ## The states are those of the handlers -/

variable {app app' : App} {env : Env} {id : UInt64} {effects : List InputEffect}

theorem setOutputSize_fst (app : App) (size : Size) :
    (setOutputSize app size).1 = app.setOutputSize size := by
  simp only [setOutputSize, App.setOutputSize]
  split
  · rename_i h
    rw [← h]
  · rfl

theorem requestWindowResize_fst (app : App) (id : UInt64) (width height : UInt32) :
    (requestWindowResize app id width height).1 = app.requestWindowResize id width height := by
  cases hwindow : app.windows.get? id with
  | none => simp only [requestWindowResize, App.requestWindowResize, hwindow]
  | some window =>
    simp only [requestWindowResize, App.requestWindowResize, hwindow]
    split
    · rfl
    · simp only [setOutputSize_fst]

theorem requestWindowMaximizeById_fst (app : App) (id : UInt64) :
    (requestWindowMaximizeById app id).1 = app.requestWindowMaximizeById id := by
  cases hwindow : app.windows.get? id with
  | none => simp only [requestWindowMaximizeById, App.requestWindowMaximizeById, hwindow]
  | some window =>
    simp only [requestWindowMaximizeById, App.requestWindowMaximizeById, hwindow]
    split
    · rfl
    · rfl

theorem requestWindowUnmaximizeById_fst (app : App) (env : Env) (id : UInt64) (suppress : Bool) :
    (requestWindowUnmaximizeById app env id suppress).1 =
      app.requestWindowUnmaximizeById env id suppress := by
  cases hwindow : app.windows.get? id with
  | none => simp only [requestWindowUnmaximizeById, App.requestWindowUnmaximizeById, hwindow]
  | some window =>
    simp only [requestWindowUnmaximizeById, App.requestWindowUnmaximizeById, hwindow]
    split
    · rfl
    · cases hmode : window.mode.leaveMaximized with
      | mk mode target => cases target <;> rfl

theorem toggleWindowMaximize_fst (app : App) (env : Env) (id : UInt64) :
    (toggleWindowMaximize app env id).1 = app.toggleWindowMaximize env id := by
  cases hwindow : app.windows.get? id with
  | none => simp only [toggleWindowMaximize, App.toggleWindowMaximize, hwindow]
  | some window =>
    simp only [toggleWindowMaximize, App.toggleWindowMaximize, hwindow]
    split
    · exact requestWindowUnmaximizeById_fst app env id false
    · exact requestWindowMaximizeById_fst app id

theorem requestWindowFullscreenById_fst (app : App) (id : UInt64) :
    (requestWindowFullscreenById app id).1 = app.requestWindowFullscreenById id := by
  cases hwindow : app.windows.get? id with
  | none => simp only [requestWindowFullscreenById, App.requestWindowFullscreenById, hwindow]
  | some window =>
    simp only [requestWindowFullscreenById, App.requestWindowFullscreenById, hwindow]
    split
    · rfl
    · rfl

theorem requestWindowUnfullscreenById_fst (app : App) (env : Env) (id : UInt64) (suppress : Bool) :
    (requestWindowUnfullscreenById app env id suppress).1 =
      app.requestWindowUnfullscreenById env id suppress := by
  cases hwindow : app.windows.get? id with
  | none => simp only [requestWindowUnfullscreenById, App.requestWindowUnfullscreenById, hwindow]
  | some window =>
    simp only [requestWindowUnfullscreenById, App.requestWindowUnfullscreenById, hwindow]
    split
    · rfl
    · cases hmode : window.mode.leaveFullscreen with
      | mk mode target => cases target <;> rfl

theorem setWindowFullscreen_fst (app : App) (env : Env) (id : UInt64) (fullscreen : Bool) :
    (setWindowFullscreen app env id fullscreen).1 = app.setWindowFullscreen env id fullscreen := by
  cases fullscreen with
  | true => exact requestWindowFullscreenById_fst app id
  | false => exact requestWindowUnfullscreenById_fst app env id false

theorem focusWindow_focusWindow (app : App) (id : UInt64) :
    (app.focusWindow id).focusWindow id = app.focusWindow id := by
  cases hwindow : app.windows.get? id with
  | none => simp only [App.focusWindow, hwindow]
  | some window =>
    have hactive : (app.focusWindow id).activeWindowId = some id := by
      simp only [App.focusWindow, hwindow]
      split <;> rfl
    generalize app.focusWindow id = focused at hactive ⊢
    unfold App.focusWindow
    split
    · rfl
    · simp only [hactive, ne_eq, not_true_eq_false, if_false]
      rw [← hactive]

theorem keyboardKey_fst {keycode : UInt32} (h : keyboardKey app id keycode = .ok (app', effects)) :
    app' = app.focusWindow id := by
  simp only [keyboardKey] at h
  split at h
  · cases h
    rfl
  · cases h

theorem keyboardKeys_fst {keys : List (UInt32 × InputKeyState)} :
    ∀ {app : App} {effects : List InputEffect}, keyboardKeys (app.focusWindow id) id keys =
      .ok (app', effects) → app' = app.focusWindow id := by
  induction keys with
  | nil =>
    intro app effects h
    cases h
    rfl
  | cons key rest ih =>
    intro app effects h
    obtain ⟨⟨mid, first⟩, hkey, h⟩ := bind_eq_ok.1 h
    obtain ⟨⟨last, more⟩, hrest, h⟩ := bind_eq_ok.1 h
    cases h
    rw [keyboardKey_fst hkey] at hrest
    rw [ih hrest, focusWindow_focusWindow]

/-- What is left of the numbers is what the handlers do. -/
theorem handleInputEvent_app {delivery : TextInputDelivery} {event : InputEvent}
    (h : handleInputEvent app env delivery event = .ok (app', effects)) :
    app.handleInputEvent env event = .ok app' := by
  cases event with
  | pointerMotion id x y =>
    simp only [handleInputEvent, pointerMotion] at h
    split at h
    · cases h
    · cases h
      rfl
    · cases h
      rfl
  | pointerButton | pointerScroll | close | preedit =>
    cases h
    rfl
  | key id keycode state =>
    simp only [handleInputEvent, keyboardKey] at h
    simp only [App.handleInputEvent]
    split at h
    · rename_i hfits
      cases h
      rw [if_pos hfits]
    · cases h
  | text id text =>
    simp only [handleInputEvent, injectText] at h
    cases delivery with
    | sent =>
      cases h
      rfl
    | waitingForEnable | unavailable =>
      rw [keyboardKeys_fst h]
      rfl
  | focus id focused =>
    cases h
    rfl
  | resize id width height =>
    have heq : requestWindowResize app id width height = (app', effects) := Except.ok.inj h
    rw [App.handleInputEvent, ← requestWindowResize_fst, heq]
  | toggleMaximize id =>
    have heq : toggleWindowMaximize app env id = (app', effects) := Except.ok.inj h
    rw [App.handleInputEvent, ← toggleWindowMaximize_fst, heq]
  | setFullscreen id fullscreen =>
    have heq : setWindowFullscreen app env id fullscreen = (app', effects) := Except.ok.inj h
    rw [App.handleInputEvent, ← setWindowFullscreen_fst, heq]

end Traced

/-! ## Sizes -/

/-- Both extents are `i32`s. -/
structure SizeFits (size : Size) : Prop where
  width : size.1.toNat < 2 ^ 31
  height : size.2.toNat < 2 ^ 31

instance (size : Size) : Decidable (SizeFits size) :=
  decidable_of_iff (size.1.toNat < 2 ^ 31 ∧ size.2.toNat < 2 ^ 31)
    ⟨fun h => ⟨h.1, h.2⟩, fun h => ⟨h.width, h.height⟩⟩

/-- Both are positive. -/
def Positive (size : Int32 × Int32) : Prop := 0 < size.1.toInt ∧ 0 < size.2.toInt

theorem toInt_toInt32_neg {n : UInt32} (h : 2 ^ 31 ≤ n.toNat) : n.toInt32.toInt < 0 := by
  have hlt := n.toNat_lt
  have hbits : n.toInt32.toInt = n.toBitVec.toInt := rfl
  have hn : n.toBitVec.toNat = n.toNat := rfl
  rw [hbits, BitVec.toInt_eq_toNat_cond, if_neg (by omega)]
  omega

theorem pos_toInt32_iff {n : UInt32} : 0 < n.toInt32.toInt ↔ 1 ≤ n.toNat ∧ n.toNat < 2 ^ 31 := by
  obtain hlt | hge := Nat.lt_or_ge n.toNat (2 ^ 31)
  · rw [App.toInt_toInt32 hlt]
    omega
  · have hneg := toInt_toInt32_neg hge
    omega

theorem positive_nonzeroSize_iff {size : Size} : Positive (asI32 (nonzeroSize size)) ↔ SizeFits size := by
  have hone : (1 : UInt32).toNat = 1 := rfl
  simp only [Positive, asI32, nonzeroSize, pos_toInt32_iff, toNat_max, hone]
  constructor
  · rintro ⟨hw, hh⟩
    exact ⟨by omega, by omega⟩
  · rintro ⟨hw, hh⟩
    omega

theorem SizeFits.of_nonzeroSize {size : Size} (h : SizeFits (nonzeroSize size)) : SizeFits size := by
  have hpos := positive_nonzeroSize_iff.2 h
  rw [nonzeroSize_nonzeroSize] at hpos
  exact positive_nonzeroSize_iff.1 hpos

theorem SizeFits.of_inside {outputSize size : Size} (h : SizeFits outputSize)
    (hinside : Inside outputSize size) : SizeFits size := by
  obtain ⟨hw, hh⟩ := h
  obtain ⟨-, hwidth, -, hheight⟩ := hinside
  have hone : (1 : UInt32).toNat = 1 := rfl
  simp only [nonzeroSize, UInt32.le_iff_toNat_le, toNat_max, hone] at hwidth hheight
  exact ⟨by omega, by omega⟩

namespace App

variable {app app' : App} {env : Env} {surface : ObjectId} {id : UInt64}

/-- A window has a size that a tile can have. -/
def WindowSizes (app : App) : Prop :=
  ∀ id root size, app.face id = some (root, size) → SizeFits size ∧ 1 ≤ size.1.toNat ∧ 1 ≤ size.2.toNat

theorem WindowSizes.of_faces (hs : WindowSizes app) (h : ∀ i, app'.face i = app.face i) :
    WindowSizes app' := by
  intro i root size hface
  exact hs i root size (h i ▸ hface)

theorem WindowSizes.of_windows (hs : WindowSizes app) (h : app'.windows = app.windows) :
    WindowSizes app' := by
  refine hs.of_faces fun i => ?_
  rw [face, face, h]

theorem WindowSizes.painted (hs : WindowSizes app) {tile : FrameTile} {x y : Int32}
    (hdrawn : Drawn tile id x y) (surface : ObjectId) :
    WindowSizes (app.paintedRoot surface id tile) := by
  obtain ⟨-, -, -, -, -, hfaces⟩ := paintedRoot_frame app surface id tile
  obtain ⟨hw, hwlt, hh, hhlt⟩ := hdrawn.nonzeroSize_le
  intro i root size hface
  rw [hfaces i] at hface
  split at hface
  · obtain ⟨⟨root', old⟩, -, heq⟩ := Option.map_eq_some_iff.1 hface
    cases heq
    exact ⟨⟨hwlt, hhlt⟩, hw, hh⟩
  · exact hs i root size hface

theorem WindowSizes.committed (hs : WindowSizes app) {buffer : CommitBuffer} {damageCount : Nat}
    (h : Committed app env surface buffer damageCount app') : WindowSizes app' := by
  have hcached : WindowSizes (app.cacheBuffer surface buffer) :=
    hs.of_windows (windows_cacheBuffer app surface buffer)
  have htracked (windowId : UInt64) :
      ((app.trackChild surface windowId).cacheBuffer surface buffer).windows = app.windows :=
    windows_cacheBuffer (app.trackChild surface windowId) surface buffer
  cases h with
  | dropped => exact hs
  | rootTile hroot hcopied hcommit =>
    obtain ⟨cached, -, hcopy⟩ := copyCommittedShmBuffer_copy hcopied
    rw [commitRoot_eq] at hcommit
    exact (hcached.painted (drawn_of_copy hcopy) surface).of_windows
      (repaintMovedChildSurfaces_frame hcommit).1
  | rootNone hroot hcopied hrepaint =>
    exact hcached.of_windows (repaintMovedChildSurfaces_frame hrepaint).1
  | rootError => exact hcached
  | childTile hroot hoffset hcopied hcommit =>
    rw [commitChild_eq hcommit]
    exact hs.of_windows (htracked _)
  | childNone => exact hs.of_windows (htracked _)
  | @childRemoved windowId _ _ _ hroot hoffset hbuffer hrepaint =>
    subst hbuffer
    rw [repaintWindowFromCachedBuffer_eq hrepaint]
    have hforgotten :=
      forgotten_frame ((app.trackChild surface windowId).cacheBuffer surface .removed) surface
    exact hs.of_windows (hforgotten.2.1.trans (htracked windowId))

theorem WindowSizes.step (hs : WindowSizes app) {call : Call} (h : app.step call = .ok app') :
    WindowSizes app' := by
  cases step_scene h with
  | same _ hsame => exact hs.of_faces hsame.faces
  | @created surface title appId _ =>
    obtain ⟨hfaces, -⟩ := newToplevel_scene app surface title appId
    intro i root size hface
    rw [hfaces i] at hface
    split at hface
    · cases hface
      exact ⟨⟨by decide, by decide⟩, by decide, by decide⟩
    · exact hs i root size hface
  | closed _ hroot =>
    obtain ⟨hfaces, -⟩ := toplevelDestroyed_scene call.env hroot
    intro i root size hface
    rw [hfaces i] at hface
    split at hface
    · cases hface
    · exact hs i root size hface
  | routed => exact hs.of_windows (routePopup_frame app call.env _ _ _).2.1
  | committed _ hcommitted => exact hs.committed hcommitted
  | @forgot surface _ _ hforget =>
    rw [forgetSurface_eq hforget]
    exact hs.of_windows (forgotten_frame app surface).2.1
  | released => exact hs.of_windows rfl

theorem WindowSizes.run {req : ViewRequest} {maxOutputSize : Size} {calls : List Call}
    (h : { start req with maxOutputSize }.run calls = .ok app) : WindowSizes app := by
  have hstart : WindowSizes { start req with maxOutputSize } := by
    intro i root size hface
    cases hface
  exact foldlM_invariant (fun _ _ _ hs h => hs.step h) hstart h

/-- A coordinate is cut to the pixels of the window. -/
theorem clamp_inside (n : Int32) {size : UInt32} (hpos : 1 ≤ size.toNat)
    (hlt : size.toNat < 2 ^ 31) :
    ∃ m, clamp n 0 (lastPixel size) = .ok m ∧ 0 ≤ m.toInt ∧ m.toInt < size.toNat := by
  have hone : (1 : UInt32).toNat = 1 := rfl
  have hzero : (0 : Int32).toInt = 0 := rfl
  have hne : ¬ size = 0 := by
    rintro rfl
    exact absurd hpos (by decide)
  have hsub := UInt32.toNat_sub_of_le size 1 (UInt32.le_iff_toNat_le.2 (by omega))
  have hlast : (lastPixel size).toInt = size.toNat - 1 := by
    rw [lastPixel, if_neg hne, toInt_toInt32 (by omega)]
    omega
  refine ⟨_, if_pos (by rw [Int32.le_iff_toInt_le, hlast, hzero]; omega), ?_⟩
  split
  · rw [hzero]
    omega
  · rename_i hlow
    rw [Int32.lt_iff_toInt_lt, hzero] at hlow
    split
    · rw [hlast]
      omega
    · rename_i hhigh
      rw [Int32.lt_iff_toInt_lt, hlast] at hhigh
      omega

end App

/-! ## Every number that is passed on -/

/-- Sizes are positive, and where no popup is hit the pointer is inside the window. -/
def InputEffect.Good (app : App) : InputEffect → Prop
  | .key _ => True
  | .configure size => Positive size
  | .outputMode size => Positive size
  | .restore size => Positive (asI32 size)
  | .motion id x y target =>
    (∃ key ∈ app.popupOrder, app.popupTargetAt id x y key = some target) ∨
      ∃ window, app.windows.get? id = some window ∧ target.surface = window.surface ∧
        target.originX = 0 ∧ target.originY = 0 ∧ App.Inside target.x target.y window.size

/-- No arithmetic panics, and every number that is passed on is good. -/
def HandlesInput (app : App) (env : Env) (delivery : TextInputDelivery) (event : InputEvent) : Prop :=
  ∃ app' effects, Traced.handleInputEvent app env delivery event = .ok (app', effects) ∧
    ∀ effect ∈ effects, effect.Good app

/-- The keycode leaves room for the offset of XKB, and a size that is asked for, or that a change of
mode goes to, is one of `i32`s. -/
def InputFits (app : App) : InputEvent → Prop
  | .key _ keycode _ => keycode.toNat + 8 < 2 ^ 32
  | .resize id width height => (app.windows.get? id).isSome → SizeFits (width, height)
  | .toggleMaximize id =>
    ∀ window, app.windows.get? id = some window →
      match window.mode with
      | .maximized restoreSize => SizeFits restoreSize
      | _ => SizeFits app.maxOutputSize
  | .setFullscreen id true => (app.windows.get? id).isSome → SizeFits app.maxOutputSize
  | .setFullscreen id false =>
    ∀ window restoreSize, app.windows.get? id = some window →
      window.mode = .fullscreen restoreSize → SizeFits restoreSize
  | _ => True

namespace Traced

variable {app app' : App} {env : Env} {id : UInt64} {window : RemoteWindow}

/-- What was passed on is good. -/
def Fine (app : App) (handled : Handled) : Prop := ∀ effect ∈ handled.2, effect.Good app

theorem good_configure_iff {size : Size} :
    (InputEffect.configure (asI32 (nonzeroSize size))).Good app ↔ SizeFits size :=
  positive_nonzeroSize_iff

theorem requestWindowResize_fine_iff (hsize : SizeFits window.size)
    (hwindow : app.windows.get? id = some window) {width height : UInt32} :
    Fine app (requestWindowResize app id width height) ↔ SizeFits (width, height) := by
  simp only [Fine, requestWindowResize, hwindow]
  split
  · rename_i hsame
    rw [hsame.1] at hsize
    exact iff_of_true (fun _ he => absurd he List.not_mem_nil) hsize.of_nonzeroSize
  · constructor
    · intro hgood
      exact good_configure_iff.1 (hgood _ (List.mem_append_right _ List.mem_cons_self))
    · intro hfits effect he
      obtain he | he := List.mem_append.1 he
      · simp only [setOutputSize] at he
        split at he
        · cases he
        · rw [List.mem_singleton.1 he, nonzeroSize_nonzeroSize]
          exact positive_nonzeroSize_iff.2 hfits
      · rw [List.mem_singleton.1 he]
        exact good_configure_iff.2 hfits

/-- A mode is entered: the size to restore is inside the output. -/
theorem entered_fine_iff {currentSize : Size} :
    Fine app (app', [.restore (nonzeroSize (restoreSizeForModeEntry currentSize app.maxOutputSize)),
      .configure (asI32 (nonzeroSize app.maxOutputSize))]) ↔ SizeFits app.maxOutputSize := by
  constructor
  · intro hgood
    exact good_configure_iff.1 (hgood _ (List.mem_cons_of_mem _ List.mem_cons_self))
  · intro hfits effect he
    obtain rfl | he := List.mem_cons.1 he
    · have hinside := restoreSizeForModeEntry_inside currentSize app.maxOutputSize
      exact positive_nonzeroSize_iff.2 (hfits.of_inside hinside).of_nonzeroSize
    · rw [List.mem_singleton.1 he]
      exact good_configure_iff.2 hfits

theorem configured_fine_iff {size : Size} :
    Fine app (app', [.configure (asI32 (nonzeroSize size))]) ↔ SizeFits size := by
  constructor
  · intro hgood
    exact good_configure_iff.1 (hgood _ List.mem_cons_self)
  · intro hfits effect he
    rw [List.mem_singleton.1 he]
    exact good_configure_iff.2 hfits

theorem fine_nil : Fine app (app', []) := fun _ he => absurd he List.not_mem_nil

theorem requestWindowMaximizeById_fine_iff (hwindow : app.windows.get? id = some window)
    (hmode : window.mode.isMaximized = false) :
    Fine app (requestWindowMaximizeById app id) ↔ SizeFits app.maxOutputSize := by
  have hrestore : (match window.mode with
      | .maximized restoreSize => restoreSize
      | _ => restoreSizeForModeEntry window.size app.maxOutputSize) =
      restoreSizeForModeEntry window.size app.maxOutputSize := by
    cases hm : window.mode with
    | maximized restoreSize =>
      rw [hm] at hmode
      cases hmode
    | normal | fullscreen => rfl
  simp only [requestWindowMaximizeById, hwindow, hmode, hrestore, enter, Bool.false_eq_true, false_and,
    if_false]
  exact entered_fine_iff

theorem requestWindowUnmaximizeById_fine_iff (hwindow : app.windows.get? id = some window)
    {restoreSize : Size} (hmode : window.mode = .maximized restoreSize) :
    Fine app (requestWindowUnmaximizeById app env id false) ↔ SizeFits restoreSize := by
  simp only [requestWindowUnmaximizeById, hwindow, hmode, WindowMode.leaveMaximized,
    Bool.false_eq_true, false_and, if_false]
  exact configured_fine_iff

theorem toggleWindowMaximize_fine_iff (hwindow : app.windows.get? id = some window) :
    Fine app (toggleWindowMaximize app env id) ↔
      match window.mode with
      | .maximized restoreSize => SizeFits restoreSize
      | _ => SizeFits app.maxOutputSize := by
  simp only [toggleWindowMaximize, hwindow]
  cases hmode : window.mode with
  | maximized restoreSize =>
    simp only [WindowMode.isMaximized, if_true]
    exact requestWindowUnmaximizeById_fine_iff hwindow hmode
  | normal | fullscreen =>
    simp only [WindowMode.isMaximized, Bool.false_eq_true, if_false]
    exact requestWindowMaximizeById_fine_iff hwindow (by rw [hmode]; rfl)

theorem requestWindowFullscreenById_fine_iff (hsize : SizeFits window.size)
    (hwindow : app.windows.get? id = some window) :
    Fine app (requestWindowFullscreenById app id) ↔ SizeFits app.maxOutputSize := by
  simp only [requestWindowFullscreenById, hwindow]
  cases hmode : window.mode with
  | fullscreen restoreSize =>
    simp only [WindowMode.isFullscreen, true_and, enter, if_true, List.nil_append]
    split
    · rename_i haligned
      rw [haligned] at hsize
      exact iff_of_true fine_nil hsize.of_nonzeroSize
    · exact configured_fine_iff
  | normal | maximized =>
    simp only [WindowMode.isFullscreen, Bool.false_eq_true, false_and, if_false, enter]
    exact entered_fine_iff

theorem requestWindowUnfullscreenById_fine_iff (hwindow : app.windows.get? id = some window) :
    Fine app (requestWindowUnfullscreenById app env id false) ↔
      ∀ restoreSize, window.mode = .fullscreen restoreSize → SizeFits restoreSize := by
  simp only [requestWindowUnfullscreenById, hwindow, Bool.false_eq_true, false_and, if_false]
  cases hmode : window.mode with
  | fullscreen restoreSize =>
    simp only [WindowMode.leaveFullscreen, WindowMode.fullscreen.injEq, forall_eq']
    exact configured_fine_iff
  | normal | maximized =>
    simp only [WindowMode.leaveFullscreen, reduceCtorEq, false_imp_iff, implies_true, iff_true]
    exact fine_nil

/-! ## Keys -/

theorem asciiKeycode_lt {ch : Char} {keycode : UInt32} {shifted : Bool}
    (h : asciiKeycode ch = some (keycode, shifted)) : keycode.toNat < 64 := by
  have hall : asciiKeycodes.all (fun p => p.2.1.toNat < 64) = true := by decide
  obtain ⟨before, after, hsplit, -⟩ := List.lookup_eq_some_iff.1 h
  have hmem : (ch, keycode, shifted) ∈ asciiKeycodes := by
    rw [hsplit]
    exact List.mem_append_right _ List.mem_cons_self
  exact of_decide_eq_true (List.all_eq_true.1 hall _ hmem)

theorem characterKeys_lt {ch : Char} {keys : List (UInt32 × InputKeyState)}
    (h : characterKeys ch = some keys) : ∀ key ∈ keys, key.1.toNat < 64 := by
  obtain ⟨⟨keycode, shifted⟩, hcode, rfl⟩ := Option.map_eq_some_iff.1 h
  have hlt := asciiKeycode_lt hcode
  intro key hkey
  have hshift : (42 : UInt32).toNat < 64 := by decide
  cases shifted with
  | true =>
    simp only [if_true, List.mem_append, List.mem_cons, List.not_mem_nil, or_false] at hkey
    obtain (rfl | rfl | rfl) | rfl := hkey
    · exact hshift
    · exact hlt
    · exact hlt
    · exact hshift
  | false =>
    simp only [Bool.false_eq_true, if_false, List.mem_append, List.mem_cons, List.not_mem_nil,
      or_false, false_or] at hkey
    obtain rfl | rfl := hkey
    · exact hlt
    · exact hlt

/-- Keys with room for the offset of XKB are passed on. -/
theorem keyboardKeys_ok {keys : List (UInt32 × InputKeyState)}
    (h : ∀ key ∈ keys, key.1.toNat < 64) (app a : App) :
    ∃ app' effects, keyboardKeys app id keys = .ok (app', effects) ∧
      ∀ effect ∈ effects, effect.Good a := by
  induction keys generalizing app with
  | nil => exact ⟨app, [], rfl, fun _ he => absurd he List.not_mem_nil⟩
  | cons key rest ih =>
    have hkey : keyboardKey app id key.1 = .ok (app.focusWindow id, [.key (key.1 + 8)]) := by
      have hlt := h key List.mem_cons_self
      exact if_pos (by omega)
    obtain ⟨app', effects, hrest, hgood⟩ :=
      ih (fun k hk => h k (List.mem_cons_of_mem _ hk)) (app.focusWindow id)
    refine ⟨app', .key (key.1 + 8) :: effects, ?_, fun effect he => ?_⟩
    · rw [keyboardKeys, hkey]
      simp only [bind, Except.bind, hrest]
      rfl
    · obtain rfl | he := List.mem_cons.1 he
      · exact True.intro
      · exact hgood effect he

theorem injectText_ok (app : App) (delivery : TextInputDelivery) (id : UInt64) (text : String) :
    ∃ app' effects, injectText app delivery id text = .ok (app', effects) ∧
      ∀ effect ∈ effects, effect.Good app := by
  have hkeys : ∀ key ∈ (text.toList.filterMap characterKeys).flatten, key.1.toNat < 64 := by
    intro key hkey
    obtain ⟨keys, hmem, hkey⟩ := List.mem_flatten.1 hkey
    obtain ⟨ch, -, hch⟩ := List.mem_filterMap.1 hmem
    exact characterKeys_lt hch key hkey
  cases delivery with
  | sent => exact ⟨_, [], rfl, fun _ he => absurd he List.not_mem_nil⟩
  | waitingForEnable | unavailable => exact keyboardKeys_ok hkeys (app.focusWindow id) app

/-! ## The pointer -/

theorem pointerMotion_ok (hs : app.WindowSizes) (id : UInt64) (x y : Int32) :
    ∃ app' effects, pointerMotion app id x y = .ok (app', effects) ∧
      ∀ effect ∈ effects, effect.Good app := by
  cases hpopup : app.popupOrder.reverse.findSome? (app.popupTargetAt id x y) with
  | some target =>
    refine ⟨app, [.motion id x y target], ?_, fun effect he => ?_⟩
    · simp only [pointerMotion, App.pointerTargetAt, hpopup]
    · rw [List.mem_singleton.1 he]
      obtain ⟨key, hkey, htarget⟩ := List.exists_of_findSome?_eq_some hpopup
      exact .inl ⟨key, List.mem_reverse.1 hkey, htarget⟩
  | none =>
    cases hwindow : app.windows.get? id with
    | none =>
      refine ⟨app, [], ?_, fun _ he => absurd he List.not_mem_nil⟩
      simp only [pointerMotion, App.pointerTargetAt, hpopup, hwindow]
    | some window =>
      obtain ⟨⟨hw, hh⟩, hwpos, hhpos⟩ := hs id _ _ (App.face_eq_some hwindow)
      obtain ⟨rootX, hx, hx0, hxlt⟩ := App.clamp_inside x hwpos hw
      obtain ⟨rootY, hy, hy0, hylt⟩ := App.clamp_inside y hhpos hh
      refine ⟨app, [.motion id x y
        { surface := window.surface, originX := 0, originY := 0, x := rootX, y := rootY }], ?_,
        fun effect he => ?_⟩
      · simp only [pointerMotion, App.pointerTargetAt, hpopup, hwindow, hx, hy]
        rfl
      · rw [List.mem_singleton.1 he]
        exact .inr ⟨window, hwindow, rfl, rfl, rfl, hx0, hxlt, hy0, hylt⟩

end Traced

/-! ## Which events are handled -/

variable {app : App} {env : Env} {delivery : TextInputDelivery}

theorem handlesInput_iff_fine {event : InputEvent} {handled : Traced.Handled}
    (h : Traced.handleInputEvent app env delivery event = .ok handled) :
    HandlesInput app env delivery event ↔ Traced.Fine app handled := by
  constructor
  · rintro ⟨app', effects, h', hgood⟩
    rw [h] at h'
    cases h'
    exact hgood
  · intro hfine
    exact ⟨handled.1, handled.2, h, hfine⟩

/-- An event that passes no number on. -/
theorem handlesInput_quiet {event : InputEvent} (app' : App)
    (h : Traced.handleInputEvent app env delivery event = .ok (app', [])) :
    HandlesInput app env delivery event :=
  (handlesInput_iff_fine h).2 Traced.fine_nil

theorem handlesInput_key_iff (id : UInt64) (keycode : UInt32) (state : InputKeyState) :
    HandlesInput app env delivery (.key id keycode state) ↔ keycode.toNat + 8 < 2 ^ 32 := by
  by_cases hfits : keycode.toNat + 8 < 2 ^ 32
  · have hkey : Traced.handleInputEvent app env delivery (.key id keycode state) =
        .ok (app.focusWindow id, [.key (keycode + 8)]) := if_pos hfits
    refine iff_of_true ((handlesInput_iff_fine hkey).2 fun effect he => ?_) hfits
    rw [List.mem_singleton.1 he]
    exact True.intro
  · have hkey : Traced.handleInputEvent app env delivery (.key id keycode state) =
        .error (.fault .overflow) := if_neg hfits
    refine iff_of_false ?_ hfits
    rintro ⟨app', effects, h, -⟩
    rw [hkey] at h
    cases h

/-- An event for a window that is not there. -/
theorem handlesInput_missing {id : UInt64} (hwindow : app.windows.get? id = none)
    (event : InputEvent) (hevent : (∃ width height, event = .resize id width height) ∨
      event = .toggleMaximize id ∨ ∃ fullscreen, event = .setFullscreen id fullscreen) :
    HandlesInput app env delivery event := by
  apply handlesInput_quiet app
  obtain ⟨width, height, rfl⟩ | rfl | ⟨_ | _, rfl⟩ := hevent
  · simp only [Traced.handleInputEvent, Traced.requestWindowResize, hwindow]
  · simp only [Traced.handleInputEvent, Traced.toggleWindowMaximize, hwindow]
  · simp [Traced.handleInputEvent, Traced.setWindowFullscreen,
      Traced.requestWindowUnfullscreenById, hwindow]
  · simp [Traced.handleInputEvent, Traced.setWindowFullscreen,
      Traced.requestWindowFullscreenById, hwindow]

theorem handlesInput_setFullscreen_iff (hs : app.WindowSizes) {id : UInt64} {window : RemoteWindow}
    (hwindow : app.windows.get? id = some window) (fullscreen : Bool) :
    HandlesInput app env delivery (.setFullscreen id fullscreen) ↔
      InputFits app (.setFullscreen id fullscreen) := by
  rw [handlesInput_iff_fine rfl]
  cases fullscreen with
  | true =>
    simp only [Traced.setWindowFullscreen, if_true]
    rw [Traced.requestWindowFullscreenById_fine_iff (hs id _ _ (App.face_eq_some hwindow)).1
      hwindow]
    simp [InputFits, hwindow]
  | false =>
    simp only [Traced.setWindowFullscreen, Bool.false_eq_true, if_false]
    rw [Traced.requestWindowUnfullscreenById_fine_iff hwindow]
    simp only [InputFits, hwindow, Option.some.injEq]
    constructor
    · rintro h window' restoreSize rfl hmode
      exact h restoreSize hmode
    · intro h restoreSize hmode
      exact h window restoreSize rfl hmode

/-- In every state of a session, whatever its output: an event is handled with good numbers if and
only if its own number, or the size that its change of mode goes to, fits. -/
theorem input_values_iff (req : ViewRequest) (maxOutputSize : Size) (calls : List Call) (app : App)
    (hrun : { App.start req with maxOutputSize }.run calls = .ok app) (env : Env)
    (delivery : TextInputDelivery) (event : InputEvent) :
    HandlesInput app env delivery event ↔ InputFits app event := by
  have hs := App.WindowSizes.run hrun
  cases event with
  | pointerMotion id x y => exact iff_of_true (Traced.pointerMotion_ok hs id x y) trivial
  | text id text => exact iff_of_true (Traced.injectText_ok app delivery id text) trivial
  | pointerButton | pointerScroll | focus | close | preedit =>
    exact iff_of_true (handlesInput_quiet _ rfl) trivial
  | key id keycode state => exact handlesInput_key_iff id keycode state
  | resize id width height =>
    cases hwindow : app.windows.get? id with
    | none =>
      refine iff_of_true (handlesInput_missing hwindow _ (.inl ⟨_, _, rfl⟩)) ?_
      simp [InputFits, hwindow]
    | some window =>
      rw [handlesInput_iff_fine rfl,
        Traced.requestWindowResize_fine_iff (hs id _ _ (App.face_eq_some hwindow)).1 hwindow]
      simp [InputFits, hwindow]
  | toggleMaximize id =>
    cases hwindow : app.windows.get? id with
    | none =>
      refine iff_of_true (handlesInput_missing hwindow _ (.inr (.inl rfl))) ?_
      simp [InputFits, hwindow]
    | some window =>
      rw [handlesInput_iff_fine rfl, Traced.toggleWindowMaximize_fine_iff hwindow]
      simp [InputFits, hwindow]
  | setFullscreen id fullscreen =>
    cases hwindow : app.windows.get? id with
    | none =>
      refine iff_of_true (handlesInput_missing hwindow _ (.inr (.inr ⟨_, rfl⟩))) ?_
      cases fullscreen <;> simp [InputFits, hwindow]
    | some window => exact handlesInput_setFullscreen_iff hs hwindow fullscreen

/-- A window of a host with an ordinary screen. -/
def oneWindow : List Call := [{ env := App.bareEnv, event := .newToplevel 0 "" "" }]

theorem input_values_resized :
    ∃ app, { App.start ⟨"vbox", 640, 480⟩ with maxOutputSize := (640, 480) }.run oneWindow = .ok app ∧
      HandlesInput app App.bareEnv .sent (.resize 1 800 600) := by
  refine ⟨_, rfl, ?_⟩
  exact (input_values_iff ⟨"vbox", 640, 480⟩ (640, 480) oneWindow _ rfl App.bareEnv .sent
    (.resize 1 800 600)).2 fun _ => by decide

/-- The last keycode overflows, and a width of 2^31 is negative in the output and in the window. -/
theorem input_values_wrap :
    ∃ app, { App.start ⟨"vbox", 640, 480⟩ with maxOutputSize := (640, 480) }.run oneWindow = .ok app ∧
      Traced.handleInputEvent app App.bareEnv .sent (.key 1 4294967295 .pressed) =
        .error (.fault .overflow) ∧
      ¬ HandlesInput app App.bareEnv .sent (.key 1 4294967295 .pressed) ∧
      (Traced.requestWindowResize app 1 2147483648 480).2 =
        [.outputMode (-2147483648, 480), .configure (-2147483648, 480)] ∧
      ¬ HandlesInput app App.bareEnv .sent (.resize 1 2147483648 480) := by
  refine ⟨_, rfl, rfl, ?_, by decide, ?_⟩
  · rintro ⟨app', effects, h, -⟩
    cases h
  · rintro ⟨app', effects, h, hgood⟩
    cases h
    have hwidth := (hgood (.configure (-2147483648, 480)) (by decide)).1
    exact absurd hwidth (by decide)

end VBox.Compositor
