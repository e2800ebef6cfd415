import Mathlib.Logic.Relation
import VBox.Session.Tables
import VBox.Session.TextInput

/-!
# Session.Seat

The seat of a view session: what has the focus, and what the text inputs of the guest are told
(`focus_window`, `clear_focus`, and the text inputs of `crates/server/src/wayland_session/mod.rs`).
The callbacks are those of `Session.Compositor`, with what they do to the seat, and the requests of
`zwp_text_input_v3`.

* `Seat.run_app`: on the `App` they do what `App.run` says.
-/

namespace VBox.Compositor

open Raster

/-! ## Text inputs -/

/-- What goes over a `zwp_text_input_v3` object. -/
inductive TextInputItem where
  /-- from the client -/
  | asked (request : TextInputRequest)
  | enter (surface : ObjectId)
  | leave (surface : ObjectId)
  | preeditString (text : Option String) (cursorBegin cursorEnd : Int32)
  | commitString (text : String)
  | done (serial : UInt32)

/-- `VBoxTextInput`, with what it has entered. -/
structure SeatTextInput where
  input : VBoxTextInput
  focusedSurface : Option ObjectId
  alive : Bool
  /-- all that went over the object -/
  talk : List TextInputItem

namespace SeatTextInput

/-- Nothing is sent to an object that is dead. -/
def tell (input : SeatTextInput) (items : List TextInputItem) : SeatTextInput :=
  if input.alive then { input with talk := input.talk ++ items } else input

def leave (input : SeatTextInput) : SeatTextInput :=
  match input.focusedSurface with
  | some surface => { input with focusedSurface := none }.tell [.leave surface]
  | none => input

def enter (input : SeatTextInput) (surface : ObjectId) : SeatTextInput :=
  { input with focusedSurface := some surface }.tell [.enter surface]

/-- The body of the loop of `set_text_input_focus`, for the client of the surface. -/
def focus (input : SeatTextInput) (client : WaylandClient) (surface : ObjectId) : SeatTextInput :=
  if !input.alive then input
  else if input.input.client ≠ client then input.leave
  else if input.focusedSurface = some surface then input
  else input.leave.enter surface

/-- A request of the object. -/
def request (input : SeatTextInput) (request : TextInputRequest) : SeatTextInput × Bool :=
  let (new, flush) := input.input.request request
  ({ input with input := new }.tell [.asked request], flush)

/-- A request for the first text input with this resource. -/
def requestFirst (resource : Nat) (request : TextInputRequest) :
    List SeatTextInput → List SeatTextInput × Bool
  | [] => ([], false)
  | input :: inputs =>
    if input.input.resource = resource then
      let (input, flush) := input.request request
      (input :: inputs, flush)
    else
      let (inputs, flush) := requestFirst resource request inputs
      (input :: inputs, flush)

end SeatTextInput

/-! ## The seat -/

inductive SeatItem where
  | key (keycode : UInt32) (state : InputKeyState)
  | text (text : String)
  | preedit (text : String) (cursorBegin cursorEnd : Int32)

/-- What was delivered for an input event: the window of the event, its surface if it is open, and the
surface that got the item. -/
structure SeatDelivery where
  id : UInt64
  window : Option ObjectId
  surface : Option ObjectId
  item : SeatItem

structure Seat where
  app : App
  keyboardFocus : Option ObjectId
  /-- the surface that `sync_clipboard_focus_to_surface` was called with -/
  clipboardFocus : Option ObjectId
  textInputs : List SeatTextInput
  pendingTextInput : List TextEvent
  log : List SeatDelivery

namespace App

def activeSurface (app : App) : Option ObjectId :=
  app.activeWindowId.bind fun id => (app.windows.get? id).map (·.surface)

def windowSurface (app : App) (id : UInt64) : Option ObjectId := (app.windows.get? id).map (·.surface)

/-- `new_toplevel` up to its call of `focus_window` -/
def insertToplevel (app : App) (surface : ObjectId) : App :=
  { app with
    nextWindowId := saturatingAdd app.nextWindowId 1
    surfaceToWindow := app.surfaceToWindow.insert surface app.nextWindowId
    windows := app.windows.insert app.nextWindowId
      { toplevel := { size := some (0, 0), maximized := false, fullscreen := false, activated := false }
        surface, size := (1, 1), mode := .normal, lastMoveRequestAt := none } }

end App

namespace Seat

-- the client that a surface belongs to
variable (clientOf : ObjectId → WaylandClient)

def start (req : ViewRequest) : Seat :=
  { app := .start req, keyboardFocus := none, clipboardFocus := none, textInputs := [],
    pendingTextInput := [], log := [] }

/-! ### Focus -/

def setTextInputFocus (seat : Seat) : Seat :=
  match seat.app.activeSurface with
  | none => seat
  | some surface =>
    { seat with textInputs := seat.textInputs.map fun input => input.focus (clientOf surface) surface }

def clearTextInputFocus (seat : Seat) : Seat :=
  { seat with textInputs := seat.textInputs.map SeatTextInput.leave }

def focusWindow (seat : Seat) (id : UInt64) : Seat :=
  match seat.app.windowSurface id with
  | none => seat
  | some surface =>
    { seat with
      app := seat.app.focusWindow id
      keyboardFocus := some surface
      clipboardFocus := some surface }.setTextInputFocus clientOf

def clearFocus (seat : Seat) : Seat :=
  { seat with
    app := seat.app.clearFocus
    keyboardFocus := none
    clipboardFocus := none }.clearTextInputFocus

def clearWindowFocus (seat : Seat) (id : UInt64) : Seat :=
  if seat.app.activeWindowId = some id then seat.clearFocus else seat

/-! ### Keys and text -/

def deliverKey (seat : Seat) (id : UInt64) (keycode : UInt32) (state : InputKeyState) : Seat :=
  { seat with log := seat.log ++
      [⟨id, seat.app.windowSurface id, seat.keyboardFocus, .key keycode state⟩] }

def keyboardKey (seat : Seat) (id : UInt64) (keycode : UInt32) (state : InputKeyState) :
    Except Fault Seat :=
  let seat := seat.focusWindow clientOf id
  if keycode.toNat + 8 < 2 ^ 32 then .ok (seat.deliverKey id (keycode + 8) state) else .error .overflow

/-- The loops of `commit_text_input` and `preedit_text_input`: the enabled text inputs of the active
client are sent the items. -/
def deliver (seat : Seat) (id : UInt64) (item : SeatItem) (items : VBoxTextInput → List TextInputItem) :
    TextInputDelivery × Seat :=
  match seat.app.activeSurface with
  | none => (.unavailable, seat)
  | some surface =>
    let mine (input : SeatTextInput) : Bool := input.input.client = clientOf surface
    let enabled (input : SeatTextInput) : Bool := mine input && input.input.enabled
    (if seat.textInputs.any enabled then .sent
      else if seat.textInputs.any mine then .waitingForEnable
      else .unavailable,
      { seat with
        textInputs := seat.textInputs.map fun input =>
          if enabled input then input.tell (items input.input) else input
        log := seat.log ++ (seat.textInputs.filter fun input => enabled input && input.alive).map
          fun input => ⟨id, seat.app.windowSurface id, input.focusedSurface, item⟩ })

def commitTextInput (seat : Seat) (id : UInt64) (text : String) : TextInputDelivery × Seat :=
  if text.isEmpty then (.sent, seat)
  else seat.deliver clientOf id (.text text) fun input => [.commitString text, .done input.serial]

def keyboardKeys (seat : Seat) (id : UInt64) (keys : List (UInt32 × InputKeyState)) :
    Except Fault Seat :=
  keys.foldlM (fun seat key => seat.keyboardKey clientOf id key.1 key.2) seat

/-- With whether any character was typed. -/
def synthesizeAsciiText (seat : Seat) (id : UInt64) (text : String) : Except Fault (Bool × Seat) := do
  let seat ← seat.keyboardKeys clientOf id (text.toList.filterMap characterKeys).flatten
  return (text.toList.any isMapped, seat)

def queuePendingTextInput (seat : Seat) (event : TextEvent) : Seat :=
  if seat.pendingTextInput.length ≥ pendingTextInputLimit then seat
  else { seat with pendingTextInput := seat.pendingTextInput ++ [event] }

def injectText (seat : Seat) (id : UInt64) (text : String) : Except Fault Seat :=
  let (delivery, seat) := (seat.focusWindow clientOf id).commitTextInput clientOf id text
  match delivery with
  | .sent => .ok seat
  | .waitingForEnable => do
    let (sentAny, seat) ← seat.synthesizeAsciiText clientOf id text
    return if sentAny then seat else seat.queuePendingTextInput (.text id text)
  | .unavailable => do
    let (_, seat) ← seat.synthesizeAsciiText clientOf id text
    return seat

def preeditTextInput (seat : Seat) (id : UInt64) (text : String) (cursorBegin cursorEnd : Int32) :
    Seat :=
  let preedit := if text.isEmpty then none else some text
  let (delivery, seat) := (seat.focusWindow clientOf id).deliver clientOf id
    (.preedit text cursorBegin cursorEnd)
    fun input => [.preeditString preedit cursorBegin cursorEnd, .done input.serial]
  if delivery = .waitingForEnable then
    seat.queuePendingTextInput (.preedit id text cursorBegin cursorEnd)
  else seat

/-- `handle_input_event`, for the events that may wait -/
def handleTextEvent (seat : Seat) : TextEvent → Except Fault Seat
  | .text id text => seat.injectText clientOf id text
  | .preedit id text cursorBegin cursorEnd =>
    .ok (seat.preeditTextInput clientOf id text cursorBegin cursorEnd)

/-- A callback that does nothing to the seat. -/
def withApp (seat : Seat) (app : Except Fault App) : Except Fault Seat := do
  let app ← app
  return { seat with app }

/-- The clicks and turns of the pointer go where the pointer is. -/
def handleInputEvent (seat : Seat) (env : Env) (event : InputEvent) : Except Fault Seat :=
  match event with
  | .pointerButton id _ _ | .pointerScroll id _ _ => .ok (seat.focusWindow clientOf id)
  | .key id keycode state => seat.keyboardKey clientOf id keycode state
  | .text id text => seat.handleTextEvent clientOf (.text id text)
  | .focus id focused =>
    .ok (if focused then seat.focusWindow clientOf id else seat.clearWindowFocus id)
  | .preedit id text cursorBegin cursorEnd =>
    seat.handleTextEvent clientOf (.preedit id text cursorBegin cursorEnd)
  | event => seat.withApp (seat.app.handleInputEvent env event)

/-! ### Requests -/

def flushPendingTextInput (seat : Seat) : Except Fault Seat :=
  seat.pendingTextInput.foldlM (handleTextEvent clientOf) { seat with pendingTextInput := [] }

def request (seat : Seat) (resource : Nat) (request : TextInputRequest) : Except Fault Seat :=
  let (textInputs, flush) := SeatTextInput.requestFirst resource request seat.textInputs
  let seat := { seat with textInputs }
  if flush then seat.flushPendingTextInput clientOf else .ok seat

def registerTextInput (seat : Seat) (resource : Nat) (client : WaylandClient) : Seat :=
  let input : SeatTextInput :=
    { input := { resource, client, serial := 0, enabled := false, pendingEnabled := none }
      focusedSurface := none, alive := true, talk := [] }
  let input :=
    match seat.app.activeSurface with
    | some surface => if client = clientOf surface then input.enter surface else input
    | none => input
  { seat with textInputs := seat.textInputs ++ [input] }

def newToplevel (seat : Seat) (surface : ObjectId) (title appId : String) : Seat :=
  let id := seat.app.nextWindowId
  let seat := { seat with app := seat.app.insertToplevel surface }.focusWindow clientOf id
  { seat with
    app := seat.app.enqueueMessage
      (.windowEvent (.created id { x := 0, y := 0, w := 1, h := 1 } title appId)) }

def focusNext (seat : Seat) (env : Env) : Seat :=
  match env.windowOrder.find? seat.app.windows.contains with
  | some nextId => seat.focusWindow clientOf nextId
  | none => seat.clearFocus

def toplevelDestroyed (seat : Seat) (env : Env) (surface : ObjectId) : Seat :=
  match seat.app.surfaceToWindow.get? surface with
  | none => seat
  | some id =>
    let seat := { seat with app := seat.app.removeWindow surface id }
    let seat := if seat.app.activeWindowId = some id then seat.focusNext clientOf env else seat
    { seat with app := seat.app.enqueueMessage (.windowEvent (.destroyed id)) }

end Seat

/-! ## Runs -/

inductive SeatEvent where
  | call (call : Call)
  /-- `GetTextInput` -/
  | getTextInput (resource : Nat) (client : WaylandClient)
  | request (resource : Nat) (request : TextInputRequest)
  /-- the object is gone, and `destroyed` will be called for it -/
  | died (resource : Nat)
  | destroyed (resource : Nat)

namespace Seat

variable (clientOf : ObjectId → WaylandClient)

def step (seat : Seat) : SeatEvent → Except Fault Seat
  | .call { env, event } =>
    match event with
    | .newToplevel surface title appId => .ok (seat.newToplevel clientOf surface title appId)
    | .toplevelDestroyed surface => .ok (seat.toplevelDestroyed clientOf env surface)
    | .input event => seat.handleInputEvent clientOf env event
    | event => seat.withApp (seat.app.step { env, event })
  | .getTextInput resource client => .ok (seat.registerTextInput clientOf resource client)
  | .request resource request => seat.request clientOf resource request
  | .died resource =>
    .ok { seat with
      textInputs := seat.textInputs.map fun input =>
        if input.input.resource = resource then { input with alive := false } else input }
  | .destroyed resource =>
    .ok { seat with
      textInputs := seat.textInputs.filter fun input => input.input.resource ≠ resource }

def run (seat : Seat) (events : List SeatEvent) : Except Fault Seat := events.foldlM (step clientOf) seat

/-! ### The compositor below -/

variable {clientOf} {seat seat' : Seat} {id : UInt64}

@[simp] theorem app_setTextInputFocus : (seat.setTextInputFocus clientOf).app = seat.app := by
  unfold setTextInputFocus
  split <;> rfl

@[simp] theorem app_focusWindow : (seat.focusWindow clientOf id).app = seat.app.focusWindow id := by
  unfold focusWindow
  cases h : seat.app.windows.get? id with
  | none => simp [App.windowSurface, App.focusWindow, h]
  | some window => simp [App.windowSurface, h]

@[simp] theorem app_clearFocus : seat.clearFocus.app = seat.app.clearFocus := rfl

@[simp] theorem app_deliver {item : SeatItem} {items : VBoxTextInput → List TextInputItem} :
    (seat.deliver clientOf id item items).2.app = seat.app := by
  unfold deliver
  split <;> rfl

@[simp] theorem app_commitTextInput {text : String} :
    (seat.commitTextInput clientOf id text).2.app = seat.app := by
  unfold commitTextInput
  split
  · rfl
  · exact app_deliver

@[simp] theorem app_queuePendingTextInput {event : TextEvent} :
    (seat.queuePendingTextInput event).app = seat.app := by
  unfold queuePendingTextInput
  split <;> rfl

end Seat

/-! ## What a callback can do -/

/-- What the guest is sent to type. -/
def TextInputItem.IsText : TextInputItem → Prop
  | .commitString _ | .preeditString .. => True
  | _ => False

/-- Some callbacks lead from one state to the other. -/
def Reaches (app app' : App) : Prop := ∃ calls, app.run calls = .ok app'

theorem Reaches.refl (app : App) : Reaches app app := ⟨[], rfl⟩

theorem Reaches.trans {app app' app'' : App} (h : Reaches app app') (h' : Reaches app' app'') :
    Reaches app app'' := by
  obtain ⟨calls, hrun⟩ := h
  obtain ⟨calls', hrun'⟩ := h'
  exact ⟨calls ++ calls', (App.run_append hrun).trans hrun'⟩

theorem Reaches.step {app app' : App} (call : Call) (h : app.step call = .ok app') :
    Reaches app app' := ⟨[call], by simp [App.run, h]⟩

namespace App

variable {app app' app'' : App} {env : Env} {surface : ObjectId} {id : UInt64}

/-- Nothing that has to do with the focus has changed. -/
structure SameFocus (app app' : App) : Prop where
  activeWindowId : app'.activeWindowId = app.activeWindowId
  nextWindowId : app'.nextWindowId = app.nextWindowId
  windows : ∀ id, (app'.windows.get? id).map (fun window => (window.surface, window.toplevel.activated)) =
    (app.windows.get? id).map fun window => (window.surface, window.toplevel.activated)

theorem SameFocus.of_eq (h : app'.activeWindowId = app.activeWindowId)
    (h' : app'.nextWindowId = app.nextWindowId) (hwindows : app'.windows = app.windows) :
    SameFocus app app' := ⟨h, h', fun _ => by rw [hwindows]⟩

theorem SameFocus.refl (app : App) : SameFocus app app := .of_eq rfl rfl rfl

theorem SameFocus.trans (h : SameFocus app app') (h' : SameFocus app' app'') : SameFocus app app'' :=
  ⟨h'.activeWindowId.trans h.activeWindowId, h'.nextWindowId.trans h.nextWindowId,
    fun id => (h'.windows id).trans (h.windows id)⟩

/-- A window that is replaced by one of the same surface. -/
theorem SameFocus.setWindow {window window' : RemoteWindow} (h : app.windows.get? id = some window)
    (hsurface : window'.surface = window.surface)
    (hactivated : window'.toplevel.activated = window.toplevel.activated) :
    SameFocus app (app.setWindow id window') := by
  refine ⟨rfl, rfl, fun i => ?_⟩
  simp only [App.setWindow, Table.get?_insert]
  split
  · rename_i hi
    rw [hi, h, Option.map_some, Option.map_some, hsurface, hactivated]
  · rfl

theorem apply_focus (r : ModeRequest) (maxOutputSize : Size) (now : Nat)
    (window : RemoteWindow) :
    (r.apply maxOutputSize now window).1.surface = window.surface ∧
      (r.apply maxOutputSize now window).1.toplevel.activated = window.toplevel.activated := by
  cases r with
  | resize width height =>
    simp only [ModeRequest.apply]
    split <;> exact ⟨rfl, rfl⟩
  | maximize =>
    simp only [ModeRequest.apply]
    split
    · split <;> exact ⟨rfl, rfl⟩
    · exact ⟨rfl, rfl⟩
  | unmaximize suppress =>
    simp only [ModeRequest.apply]
    split
    · exact ⟨rfl, rfl⟩
    · split <;> exact ⟨rfl, rfl⟩
  | fullscreen =>
    simp only [ModeRequest.apply]
    split
    · split <;> exact ⟨rfl, rfl⟩
    · exact ⟨rfl, rfl⟩
  | unfullscreen suppress =>
    simp only [ModeRequest.apply]
    split
    · exact ⟨rfl, rfl⟩
    · split <;> exact ⟨rfl, rfl⟩

theorem SameFocus.perform (app : App) (env : Env) (id : UInt64) (r : ModeRequest) :
    SameFocus app (app.perform env id r) := by
  cases hwindow : app.windows.get? id with
  | none =>
    rw [perform_of_none hwindow]
    exact .refl app
  | some window =>
    have hset := perform_spec hwindow env r
    obtain ⟨hsurface, hactivated⟩ := apply_focus r app.maxOutputSize env.now window
    refine ⟨by rw [hset.rest], by rw [hset.rest], fun i => ?_⟩
    rw [hset.windows i]
    split
    · rename_i hi
      rw [hi, hwindow, Option.map_some, Option.map_some, hsurface, hactivated]
    · rfl

theorem SameFocus.resizeRootWindow (app : App) (id : UInt64) (width height : UInt32) :
    SameFocus app (app.resizeRootWindow id width height).1 := by
  unfold App.resizeRootWindow
  split
  · exact .refl app
  · rename_i window hwindow
    simp only
    split
    · exact .refl app
    · exact .setWindow hwindow rfl rfl

theorem SameFocus.enqueueMessage (app : App) (msg : Message) :
    SameFocus app (app.enqueueMessage msg) := .of_eq rfl rfl rfl

theorem SameFocus.forSurface {request : UInt64 → App} (h : ∀ id, SameFocus app (request id)) :
    SameFocus app (app.forSurface surface request) := by
  unfold App.forSurface
  split
  · exact .refl app
  · exact h _

theorem SameFocus.routePopup (app : App) (env : Env) (surface : ObjectId) (parent : Option ObjectId)
    (positioner : PositionerState) : SameFocus app (app.routePopup env surface parent positioner).1 := by
  unfold App.routePopup
  split
  · exact .refl app
  · split
    · exact .refl app
    · exact .of_eq rfl rfl rfl

theorem SameFocus.forgotten (app : App) (surface : ObjectId) :
    SameFocus app ((app.removePopupRouteForSurface surface).1.clearChildSurfaceTracking surface) := by
  unfold removePopupRouteForSurface
  split <;> exact .of_eq rfl rfl rfl

theorem SameFocus.cacheBuffer (app : App) (surface : ObjectId) (buffer : CommitBuffer) :
    SameFocus app (app.cacheBuffer surface buffer) := by
  cases buffer <;> exact .of_eq rfl rfl rfl

theorem SameFocus.repaintMovedChildSurfaces {first : Bool}
    (h : app.repaintMovedChildSurfaces env id first = .ok app') : SameFocus app app' := by
  obtain ⟨-, rfl⟩ | ⟨window, m, -, -, rfl⟩ := repaintMovedChildSurfaces_eq h
  · exact .refl _
  · exact .of_eq rfl rfl rfl

theorem SameFocus.commitRoot {tile : FrameTile} (h : app.commitRoot env surface id tile = .ok app') :
    SameFocus app app' := by
  have hresize : SameFocus app ((app.updatePopupSize surface tile.w tile.h).resizeRootWindow id tile.w
      tile.h).1 :=
    (SameFocus.of_eq rfl rfl rfl : SameFocus app (app.updatePopupSize surface tile.w tile.h)).trans
      (.resizeRootWindow _ id tile.w tile.h)
  simp only [App.commitRoot] at h
  refine SameFocus.trans (SameFocus.trans ?_ (.enqueueMessage _ _)) (.repaintMovedChildSurfaces h)
  split
  · exact hresize.trans (.enqueueMessage _ _)
  · exact hresize

theorem SameFocus.commit {buffer : CommitBuffer} {damageCount : Nat}
    (h : app.commit env surface buffer damageCount = .ok app') : SameFocus app app' := by
  have htrack (windowId : UInt64) : SameFocus app (app.trackChild surface windowId) := .of_eq rfl rfl rfl
  cases commit_cases h with
  | dropped => exact .refl app
  | rootTile _ _ hcommit => exact (SameFocus.cacheBuffer app surface buffer).trans (.commitRoot hcommit)
  | rootNone _ _ hrepaint =>
    exact (SameFocus.cacheBuffer app surface buffer).trans (.repaintMovedChildSurfaces hrepaint)
  | rootError => exact .cacheBuffer app surface buffer
  | childTile _ _ _ hcommit =>
    rw [commitChild_eq hcommit]
    exact ((htrack _).trans (.cacheBuffer _ surface buffer)).trans (.of_eq rfl rfl rfl)
  | childNone => exact (htrack _).trans (.cacheBuffer _ surface buffer)
  | childRemoved _ _ _ hrepaint =>
    rw [repaintWindowFromCachedBuffer_eq hrepaint]
    exact (((htrack _).trans (.cacheBuffer _ surface .removed)).trans (.forgotten _ surface)).trans
      (.of_eq rfl rfl rfl)

theorem SameFocus.forgetSurface (h : app.forgetSurface env surface = .ok app') : SameFocus app app' := by
  rw [forgetSurface_eq h]
  exact (SameFocus.forgotten app surface).trans (.of_eq rfl rfl rfl)

theorem SameFocus.moveRequest (app : App) (env : Env) (surface : ObjectId) :
    SameFocus app (app.moveRequest env surface) := by
  refine .forSurface fun id => SameFocus.trans ?_ (.enqueueMessage _ _)
  refine ⟨rfl, rfl, fun i => ?_⟩
  simp only [Table.get?_modify]
  split
  · rename_i hi
    rw [hi, Option.map_map]
    rfl
  · rfl

/-- The callback may move the focus. -/
def focuses : Event → Bool
  | .newToplevel .. | .toplevelDestroyed _ => true
  | .input (.resize ..) | .input (.toggleMaximize _) | .input (.setFullscreen ..) => false
  | .input (.pointerMotion ..) | .input (.close _) => false
  | .input _ => true
  | _ => false

/-- **The other callbacks leave the focus alone.** -/
theorem step_same {event : Event} (hfocus : focuses event = false)
    (h : app.step { env, event } = .ok app') : SameFocus app app' := by
  cases event with
  | newToplevel | toplevelDestroyed => cases hfocus
  | newPopup surface parent positioner | repositionRequest surface parent positioner =>
    cases h
    exact .routePopup app env surface parent positioner
  | commit surface buffer damageCount => exact .commit h
  | destroyed surface | popupDestroyed surface => exact .forgetSurface h
  | bufferDestroyed buffer =>
    cases h
    exact .of_eq rfl rfl rfl
  | moveRequest surface =>
    cases h
    exact .moveRequest app env surface
  | maximizeRequest surface =>
    cases h
    unfold maximizeRequest
    split
    · exact .refl app
    · exact .forSurface fun id => .perform app env id .maximize
  | unmaximizeRequest surface =>
    cases h
    unfold unmaximizeRequest
    split
    · exact .refl app
    · exact .forSurface fun id => .perform app env id (.unmaximize true)
  | fullscreenRequest surface =>
    cases h
    exact .forSurface fun id => .perform app env id .fullscreen
  | unfullscreenRequest surface =>
    cases h
    exact .forSurface fun id => .perform app env id (.unfullscreen true)
  | minimizeRequest surface | titleChanged surface title =>
    cases h
    exact .forSurface fun _ => .enqueueMessage app _
  | input event =>
    cases event with
    | pointerMotion | close =>
      cases h
      exact .refl app
    | resize id width height =>
      cases h
      exact .perform app env id (.resize width height)
    | toggleMaximize id =>
      cases h
      unfold toggleWindowMaximize
      split
      · exact .refl app
      · split
        · exact .perform app env id (.unmaximize false)
        · exact .perform app env id .maximize
    | setFullscreen id fullscreen =>
      cases h
      unfold setWindowFullscreen
      split
      · exact .perform app env id .fullscreen
      · exact .perform app env id (.unfullscreen false)
    | pointerButton | pointerScroll | key | text | focus | preedit => cases hfocus

theorem windowSurface_setToplevelActivation (app : App) (activeId : Option UInt64) (id : UInt64) :
    (app.setToplevelActivation activeId).windowSurface id = app.windowSurface id := by
  simp only [windowSurface, setToplevelActivation, Table.get?_mapValues, Option.map_map]
  rfl

theorem windowSurface_focusWindow (app : App) (active id : UInt64) :
    (app.focusWindow active).windowSurface id = app.windowSurface id := by
  unfold focusWindow
  split
  · rfl
  · dsimp only
    split
    · exact windowSurface_setToplevelActivation _ _ id
    · rfl

theorem activeWindowId_focusWindow (h : app.windowSurface id = some surface) :
    (app.focusWindow id).activeWindowId = some id := by
  obtain ⟨window, hwindow, -⟩ := Option.map_eq_some_iff.1 h
  simp only [focusWindow, hwindow]
  split <;> rfl

/-- The window is closed, or its surface is the active one. -/
def Serves (app : App) (id : UInt64) : Prop :=
  ∀ surface, app.windowSurface id = some surface → app.activeSurface = some surface

end App

namespace Seat

variable (clientOf : ObjectId → WaylandClient)

/-- One thing that a callback can do to the seat. -/
inductive Move (seat : Seat) : Seat → Prop
  | same {app : App} : App.SameFocus seat.app app → Reaches seat.app app → Move seat { seat with app }
  | focus (id : UInt64) : Move seat (seat.focusWindow clientOf id)
  | clear {id : UInt64} : seat.app.activeWindowId = some id → Move seat seat.clearFocus
  | key {id : UInt64} (keycode : UInt32) (state : InputKeyState) : seat.app.Serves id →
      Move seat (seat.deliverKey id keycode state)
  | deliver {id : UInt64} (item : SeatItem) (text : TextInputItem) : seat.app.Serves id → text.IsText →
      Move seat (seat.deliver clientOf id item fun input => [text, .done input.serial]).2
  | wait (pendingTextInput : List TextEvent) : Move seat { seat with pendingTextInput }
  | newToplevel (surface : ObjectId) (title appId : String) :
      Move seat (seat.newToplevel clientOf surface title appId)
  | toplevelDestroyed (env : Env) (surface : ObjectId) :
      Move seat (seat.toplevelDestroyed clientOf env surface)
  | asked (resource : Nat) (request : TextInputRequest) :
      Move seat
        { seat with textInputs := (SeatTextInput.requestFirst resource request seat.textInputs).1 }
  | register (resource : Nat) (client : WaylandClient) :
      Move seat (seat.registerTextInput clientOf resource client)
  | died (resource : Nat) :
      Move seat { seat with
        textInputs := seat.textInputs.map fun input =>
          if input.input.resource = resource then { input with alive := false } else input }
  | destroyed (resource : Nat) :
      Move seat { seat with
        textInputs := seat.textInputs.filter fun input => input.input.resource ≠ resource }

abbrev Moves : Seat → Seat → Prop := Relation.ReflTransGen (Move clientOf)

variable {clientOf} {seat seat' : Seat} {id : UInt64}

theorem serves_focusWindow (seat : Seat) (id : UInt64) : (seat.focusWindow clientOf id).app.Serves id := by
  intro surface hsurface
  rw [app_focusWindow, App.windowSurface_focusWindow] at hsurface
  rw [app_focusWindow, App.activeSurface, App.activeWindowId_focusWindow hsurface]
  exact (App.windowSurface_focusWindow _ _ _).trans hsurface

theorem moves_keyboardKey {keycode : UInt32} {state : InputKeyState}
    (h : seat.keyboardKey clientOf id keycode state = .ok seat') : Moves clientOf seat seat' := by
  unfold keyboardKey at h
  split at h <;> cases h
  exact .tail (.single (.focus id)) (.key _ state (seat.serves_focusWindow id))

theorem moves_keyboardKeys {keys : List (UInt32 × InputKeyState)}
    (h : seat.keyboardKeys clientOf id keys = .ok seat') : Moves clientOf seat seat' :=
  foldlM_invariant (I := Moves clientOf seat) (fun _ _ _ hs hkey => hs.trans (moves_keyboardKey hkey))
    .refl h

theorem moves_synthesizeAsciiText {text : String} {sentAny : Bool}
    (h : seat.synthesizeAsciiText clientOf id text = .ok (sentAny, seat')) :
    Moves clientOf seat seat' := by
  obtain ⟨s, hkeys, heq⟩ := bind_eq_ok.1 h
  cases heq
  exact moves_keyboardKeys hkeys

theorem moves_queuePendingTextInput (seat : Seat) (event : TextEvent) :
    Moves clientOf seat (seat.queuePendingTextInput event) := by
  unfold queuePendingTextInput
  split
  · exact .refl
  · exact .single (.wait _)

theorem moves_commitTextInput (seat : Seat) (id : UInt64) (text : String) :
    Moves clientOf seat ((seat.focusWindow clientOf id).commitTextInput clientOf id text).2 := by
  unfold commitTextInput
  split
  · exact .single (.focus id)
  · exact .tail (.single (.focus id)) (.deliver (.text text) (.commitString text)
      (seat.serves_focusWindow id) trivial)

theorem moves_injectText {text : String} (h : seat.injectText clientOf id text = .ok seat') :
    Moves clientOf seat seat' := by
  have hcommit : Moves clientOf seat _ := seat.moves_commitTextInput id text
  unfold injectText at h
  generalize (seat.focusWindow clientOf id).commitTextInput clientOf id text = committed at h hcommit
  obtain ⟨delivery, committed⟩ := committed
  cases delivery with
  | sent =>
    cases h
    exact hcommit
  | waitingForEnable =>
    obtain ⟨⟨sentAny, s⟩, htyped, heq⟩ := bind_eq_ok.1 h
    cases heq
    have htyped := hcommit.trans (moves_synthesizeAsciiText htyped)
    split
    · exact htyped
    · exact htyped.trans (moves_queuePendingTextInput s _)
  | unavailable =>
    obtain ⟨⟨sentAny, s⟩, htyped, heq⟩ := bind_eq_ok.1 h
    cases heq
    exact hcommit.trans (moves_synthesizeAsciiText htyped)

theorem moves_preeditTextInput (seat : Seat) (id : UInt64) (text : String) (cursorBegin cursorEnd : Int32) :
    Moves clientOf seat (seat.preeditTextInput clientOf id text cursorBegin cursorEnd) := by
  simp only [preeditTextInput]
  generalize (if text.isEmpty then none else some text) = preedit
  have hsent : Moves clientOf seat _ := .tail (.single (.focus id))
    (.deliver (.preedit text cursorBegin cursorEnd) (.preeditString preedit cursorBegin cursorEnd)
      (seat.serves_focusWindow id) trivial)
  split
  · exact hsent.trans (moves_queuePendingTextInput _ _)
  · exact hsent

theorem moves_handleTextEvent {event : TextEvent} (h : seat.handleTextEvent clientOf event = .ok seat') :
    Moves clientOf seat seat' := by
  cases event with
  | text id text => exact moves_injectText h
  | preedit id text cursorBegin cursorEnd =>
    cases h
    exact seat.moves_preeditTextInput id text cursorBegin cursorEnd

theorem moves_withApp (env : Env) (event : Event) (hfocus : App.focuses event = false)
    (h : seat.withApp (seat.app.step { env, event }) = .ok seat') : Moves clientOf seat seat' := by
  obtain ⟨app, happ, heq⟩ := bind_eq_ok.1 h
  cases heq
  exact .single (.same (App.step_same hfocus happ) (.step _ happ))

theorem moves_handleInputEvent {env : Env} {event : InputEvent}
    (h : seat.handleInputEvent clientOf env event = .ok seat') : Moves clientOf seat seat' := by
  cases event with
  | pointerButton id | pointerScroll id =>
    cases h
    exact .single (.focus id)
  | key id keycode state => exact moves_keyboardKey h
  | text id text =>
    have h : seat.handleTextEvent clientOf (.text id text) = .ok seat' := h
    exact moves_handleTextEvent h
  | preedit id text cursorBegin cursorEnd =>
    have h : seat.handleTextEvent clientOf (.preedit id text cursorBegin cursorEnd) = .ok seat' := h
    exact moves_handleTextEvent h
  | focus id focused =>
    cases h
    split
    · exact .single (.focus id)
    · unfold clearWindowFocus
      split
      · rename_i hactive
        exact .single (.clear hactive)
      · exact .refl
  | pointerMotion id x y => exact moves_withApp env (.input (.pointerMotion id x y)) rfl h
  | resize id width height => exact moves_withApp env (.input (.resize id width height)) rfl h
  | toggleMaximize id => exact moves_withApp env (.input (.toggleMaximize id)) rfl h
  | setFullscreen id fullscreen =>
    exact moves_withApp env (.input (.setFullscreen id fullscreen)) rfl h
  | close id => exact moves_withApp env (.input (.close id)) rfl h

theorem moves_request {resource : Nat} {request : TextInputRequest}
    (h : seat.request clientOf resource request = .ok seat') : Moves clientOf seat seat' := by
  have hasked : Moves clientOf seat _ := .single (.asked resource request)
  simp only [Seat.request] at h
  split at h
  · exact foldlM_invariant (I := Moves clientOf seat)
      (fun _ _ _ hs hevent => hs.trans (moves_handleTextEvent hevent)) (hasked.tail (.wait [])) h
  · cases h
    exact hasked

/-- **A callback makes some moves.** -/
theorem step_moves {event : SeatEvent} (h : seat.step clientOf event = .ok seat') :
    Moves clientOf seat seat' := by
  cases event with
  | call call =>
    obtain ⟨env, event⟩ := call
    cases event with
    | newToplevel surface title appId =>
      cases h
      exact .single (.newToplevel surface title appId)
    | toplevelDestroyed surface =>
      cases h
      exact .single (.toplevelDestroyed env surface)
    | input event => exact moves_handleInputEvent h
    | _ => exact moves_withApp env _ rfl h
  | getTextInput resource client =>
    cases h
    exact .single (.register resource client)
  | request resource request => exact moves_request h
  | died resource =>
    cases h
    exact .single (.died resource)
  | destroyed resource =>
    cases h
    exact .single (.destroyed resource)

theorem run_moves {events : List SeatEvent} (h : seat.run clientOf events = .ok seat') :
    Moves clientOf seat seat' :=
  foldlM_invariant (I := Moves clientOf seat) (fun _ _ _ hs hstep => hs.trans (step_moves hstep)) .refl h

/-! ### On the tables -/

theorem app_newToplevel (seat : Seat) (surface : ObjectId) (title appId : String) :
    (seat.newToplevel clientOf surface title appId).app = seat.app.newToplevel surface title appId := by
  simp only [newToplevel, app_focusWindow]
  rfl

theorem app_focusNext (seat : Seat) (env : Env) :
    (seat.focusNext clientOf env).app = seat.app.focusNext env := by
  cases hnext : env.windowOrder.find? seat.app.windows.contains with
  | none => simp only [focusNext, App.focusNext, hnext, app_clearFocus]
  | some nextId => simp only [focusNext, App.focusNext, hnext, app_focusWindow]

theorem app_toplevelDestroyed (seat : Seat) (env : Env) (surface : ObjectId) :
    (seat.toplevelDestroyed clientOf env surface).app = seat.app.toplevelDestroyed env surface := by
  cases hroot : seat.app.surfaceToWindow.get? surface with
  | none => simp only [toplevelDestroyed, App.toplevelDestroyed, hroot]
  | some id =>
    simp only [toplevelDestroyed, App.toplevelDestroyed, hroot]
    split
    · rw [app_focusNext]
    · rfl

theorem Move.reaches (h : Move clientOf seat seat') : Reaches seat.app seat'.app := by
  cases h with
  | same _ hreaches => exact hreaches
  | focus id =>
    rw [app_focusWindow]
    exact .step { env := App.bareEnv, event := .input (.focus id true) } rfl
  | @clear id hactive =>
    refine .step { env := App.bareEnv, event := .input (.focus id false) } ?_
    simp [App.step, App.handleInputEvent, App.clearWindowFocus, hactive]
  | deliver =>
    rw [app_deliver]
    exact .refl _
  | newToplevel surface title appId =>
    rw [app_newToplevel]
    exact .step { env := App.bareEnv, event := .newToplevel surface title appId } rfl
  | toplevelDestroyed env surface =>
    rw [app_toplevelDestroyed]
    exact .step { env, event := .toplevelDestroyed surface } rfl
  | key | wait | asked | register | died | destroyed => exact .refl _

/-- **The tables of the seat are those of the compositor**: a session reaches them without its text
inputs. -/
theorem run_app {events : List SeatEvent} (h : seat.run clientOf events = .ok seat') :
    Reaches seat.app seat'.app := by
  have hmoves := run_moves h
  clear h
  induction hmoves with
  | refl => exact .refl _
  | tail _ hmove ih => exact ih.trans hmove.reaches

end Seat
end VBox.Compositor
