import VBox.Session.Popups

/-!
# Session.Scene

What the viewer shows depends on the sizes of the windows, on the buffers of their surfaces and on
where the popups are. Most callbacks leave all of that alone; `step_scene` lists those that do not.
-/

namespace VBox.Compositor

/-- The messages that say nothing about the size or the pixels of a window. -/
def plain : Message → Bool
  | .windowEvent (.titleChanged _ _) | .windowEvent (.minimized _) | .windowEvent (.moveRequested _)
  | .windowEvent (.fullscreenChanged _ _) => true
  | _ => false

/-- The surface of a window, and its size. -/
def RemoteWindow.face (window : RemoteWindow) : ObjectId × Size := (window.surface, window.size)

theorem ModeRequest.face_apply (r : ModeRequest) (maxOutputSize : Size) (now : Nat)
    (window : RemoteWindow) : (r.apply maxOutputSize now window).1.face = window.face := by
  cases r with
  | resize width height =>
    simp only [ModeRequest.apply]
    split <;> rfl
  | maximize =>
    simp only [ModeRequest.apply]
    split
    · split <;> rfl
    · rfl
  | unmaximize suppress =>
    simp only [ModeRequest.apply]
    split
    · rfl
    · split <;> rfl
  | fullscreen =>
    simp only [ModeRequest.apply]
    split
    · split <;> rfl
    · rfl
  | unfullscreen suppress =>
    simp only [ModeRequest.apply]
    split
    · rfl
    · split <;> rfl

namespace App

variable {app app' app'' : App} {env : Env} {surface : ObjectId} {id : UInt64}

def face (app : App) (id : UInt64) : Option (ObjectId × Size) :=
  (app.windows.get? id).map RemoteWindow.face

/-- Nothing that is shown has changed. -/
structure SameScene (app app' : App) : Prop where
  surfaceToWindow : app'.surfaceToWindow = app.surfaceToWindow
  faces : ∀ id, app'.face id = app.face id
  popupRoutes : app'.popupRoutes = app.popupRoutes
  popupOrder : app'.popupOrder = app.popupOrder
  childSurfaces : app'.childSurfaces = app.childSurfaces
  currentBuffers : app'.currentBuffers = app.currentBuffers
  tx : ∃ msgs, app'.tx = app.tx ++ msgs ∧ ∀ msg ∈ msgs, plain msg = true

theorem SameScene.trans (h : SameScene app app') (h' : SameScene app' app'') :
    SameScene app app'' := by
  obtain ⟨msgs, htx, hplain⟩ := h.tx
  obtain ⟨msgs', htx', hplain'⟩ := h'.tx
  refine ⟨h'.surfaceToWindow.trans h.surfaceToWindow, fun id => (h'.faces id).trans (h.faces id),
    h'.popupRoutes.trans h.popupRoutes, h'.popupOrder.trans h.popupOrder,
    h'.childSurfaces.trans h.childSurfaces, h'.currentBuffers.trans h.currentBuffers, msgs ++ msgs',
    ?_, fun msg hmsg => ?_⟩
  · rw [htx', htx, List.append_assoc]
  · obtain hmsg | hmsg := List.mem_append.1 hmsg
    · exact hplain msg hmsg
    · exact hplain' msg hmsg

/-- The windows have the same faces, and nothing else changes. -/
theorem sameScene_of_faces (hfaces : ∀ id, app'.face id = app.face id)
    (hrest : app' = { app with windows := app'.windows, activeWindowId := app'.activeWindowId }) :
    SameScene app app' := by
  refine ⟨?_, hfaces, ?_, ?_, ?_, ?_, [], ?_, fun _ hmsg => (nomatch hmsg)⟩
  · rw [hrest]
  · rw [hrest]
  · rw [hrest]
  · rw [hrest]
  · rw [hrest]
  · rw [hrest, List.append_nil]

theorem SameScene.refl (app : App) : SameScene app app := sameScene_of_faces (fun _ => rfl) rfl

theorem sameScene_enqueueMessage (app : App) {msg : Message} (h : plain msg = true) :
    SameScene app (app.enqueueMessage msg) := by
  refine ⟨rfl, fun _ => rfl, rfl, rfl, rfl, rfl, [msg], rfl, fun msg' hmsg' => ?_⟩
  rw [List.mem_singleton.1 hmsg']
  exact h

theorem sameScene_setToplevelActivation (app : App) (activeId : Option UInt64) :
    SameScene app (app.setToplevelActivation activeId) := by
  refine sameScene_of_faces (fun i => ?_) rfl
  simp only [face, setToplevelActivation, Table.get?_mapValues, Option.map_map]
  rfl

theorem sameScene_focusWindow (app : App) (id : UInt64) : SameScene app (app.focusWindow id) := by
  have hactive : SameScene app { app with activeWindowId := some id } :=
    sameScene_of_faces (fun _ => rfl) rfl
  unfold focusWindow
  split
  · exact .refl app
  · simp only
    split
    · exact hactive.trans (sameScene_setToplevelActivation _ _)
    · exact hactive

theorem sameScene_clearFocus (app : App) : SameScene app app.clearFocus := by
  have hactive : SameScene app { app with activeWindowId := none } :=
    sameScene_of_faces (fun _ => rfl) rfl
  unfold clearFocus
  split
  · exact .refl app
  · exact hactive.trans (sameScene_setToplevelActivation _ _)

/-- A request for a mode changes neither the surface nor the size of a window. -/
theorem sameScene_perform (app : App) (env : Env) (id : UInt64) (r : ModeRequest) :
    SameScene app (app.perform env id r) := by
  cases hwindow : app.windows.get? id with
  | none => rw [perform_of_none hwindow]; exact .refl app
  | some window =>
    have hspec := perform_spec hwindow env r
    refine ⟨?_, fun i => ?_, ?_, ?_, ?_, ?_, _, hspec.tx, fun msg hmsg => ?_⟩
    · rw [hspec.rest]
    · rw [face, hspec.windows i, face]
      split
      · rename_i hi
        rw [hi, hwindow, Option.map_some, Option.map_some, r.face_apply]
      · rfl
    · rw [hspec.rest]
    · rw [hspec.rest]
    · rw [hspec.rest]
    · rw [hspec.rest]
    · obtain ⟨fullscreen, -, rfl⟩ := List.mem_map.1 hmsg
      rfl

theorem sameScene_forSurface {request : UInt64 → App} (h : ∀ id, SameScene app (request id)) :
    SameScene app (app.forSurface surface request) := by
  unfold forSurface
  split
  · exact .refl app
  · exact h _

theorem sameScene_moveRequest (app : App) (env : Env) (surface : ObjectId) :
    SameScene app (app.moveRequest env surface) := by
  refine sameScene_forSurface fun id => SameScene.trans (sameScene_of_faces (fun i => ?_) rfl)
    (sameScene_enqueueMessage _ rfl)
  simp only [face, Table.get?_modify]
  split
  · rename_i hi
    rw [hi, Option.map_map]
    rfl
  · rfl

theorem sameScene_handleInputEvent {event : InputEvent}
    (h : app.handleInputEvent env event = .ok app') : SameScene app app' := by
  cases event with
  | pointerMotion | close => cases h; exact .refl app
  | pointerButton | pointerScroll | text | preedit => cases h; exact sameScene_focusWindow app _
  | key i keycode state =>
    simp only [handleInputEvent] at h
    split at h
    · cases h; exact sameScene_focusWindow app i
    · cases h
  | focus i focused =>
    cases h
    split
    · exact sameScene_focusWindow app i
    · unfold clearWindowFocus
      split
      · exact sameScene_clearFocus app
      · exact .refl app
  | resize i width height => cases h; exact sameScene_perform app env i (.resize width height)
  | toggleMaximize i =>
    cases h
    unfold toggleWindowMaximize
    split
    · exact .refl app
    · split
      · exact sameScene_perform app env i (.unmaximize false)
      · exact sameScene_perform app env i .maximize
  | setFullscreen i fullscreen =>
    cases h
    unfold setWindowFullscreen
    split
    · exact sameScene_perform app env i .fullscreen
    · exact sameScene_perform app env i (.unfullscreen false)

/-! ## What a callback can change -/

/-- What `step_scene` says. -/
inductive SceneStep (app : App) (call : Call) : App → Prop
  | same {app' : App} :
      (∀ surface buffer damageCount, call.event ≠ .commit surface buffer damageCount) →
      SameScene app app' → SceneStep app call app'
  | created {surface : ObjectId} {title appId : String} :
      call.event = .newToplevel surface title appId →
      SceneStep app call (app.newToplevel surface title appId)
  | closed {surface : ObjectId} {id : UInt64} : call.event = .toplevelDestroyed surface →
      app.surfaceToWindow.get? surface = some id →
      SceneStep app call (app.toplevelDestroyed call.env surface)
  | routed {surface : ObjectId} {parent : Option ObjectId} {positioner : PositionerState} :
      call.event = .newPopup surface parent positioner ∨
        call.event = .repositionRequest surface parent positioner →
      SceneStep app call (app.routePopup call.env surface parent positioner).1
  | committed {surface : ObjectId} {buffer : CommitBuffer} {damageCount : Nat} {app' : App} :
      call.event = .commit surface buffer damageCount →
      Committed app call.env surface buffer damageCount app' → SceneStep app call app'
  | forgot {surface : ObjectId} {app' : App} :
      call.event = .destroyed surface ∨ call.event = .popupDestroyed surface →
      app.forgetSurface call.env surface = .ok app' → SceneStep app call app'
  | released {buffer : BufferId} : call.event = .bufferDestroyed buffer →
      SceneStep app call (app.bufferDestroyed buffer)

/-- **A callback leaves the scene alone, or does one thing to it.** -/
theorem step_scene {call : Call} (h : app.step call = .ok app') : SceneStep app call app' := by
  obtain ⟨env, event⟩ := call
  cases event with
  | newToplevel surface title appId => cases h; exact .created rfl
  | newPopup surface parent positioner => cases h; exact .routed (.inl rfl)
  | repositionRequest surface parent positioner => cases h; exact .routed (.inr rfl)
  | commit surface buffer damageCount => exact .committed rfl (commit_cases h)
  | destroyed surface => exact .forgot (.inl rfl) h
  | popupDestroyed surface => exact .forgot (.inr rfl) h
  | toplevelDestroyed surface =>
    cases h
    cases hroot : app.surfaceToWindow.get? surface with
    | none =>
      refine .same (fun _ _ _ => Event.noConfusion) ?_
      simp only [toplevelDestroyed, hroot]
      exact .refl app
    | some id => exact .closed rfl hroot
  | bufferDestroyed buffer => cases h; exact .released rfl
  | moveRequest surface =>
    cases h
    exact .same (fun _ _ _ => Event.noConfusion) (sameScene_moveRequest app env surface)
  | maximizeRequest surface =>
    cases h
    refine .same (fun _ _ _ => Event.noConfusion) ?_
    unfold maximizeRequest
    split
    · exact .refl app
    · exact sameScene_forSurface fun id => sameScene_perform app env id .maximize
  | unmaximizeRequest surface =>
    cases h
    refine .same (fun _ _ _ => Event.noConfusion) ?_
    unfold unmaximizeRequest
    split
    · exact .refl app
    · exact sameScene_forSurface fun id => sameScene_perform app env id (.unmaximize true)
  | fullscreenRequest surface =>
    cases h
    refine .same (fun _ _ _ => Event.noConfusion) ?_
    exact sameScene_forSurface fun id => sameScene_perform app env id .fullscreen
  | unfullscreenRequest surface =>
    cases h
    refine .same (fun _ _ _ => Event.noConfusion) ?_
    exact sameScene_forSurface fun id => sameScene_perform app env id (.unfullscreen true)
  | minimizeRequest surface =>
    cases h
    refine .same (fun _ _ _ => Event.noConfusion) ?_
    exact sameScene_forSurface fun _ => sameScene_enqueueMessage app rfl
  | titleChanged surface title =>
    cases h
    refine .same (fun _ _ _ => Event.noConfusion) ?_
    exact sameScene_forSurface fun _ => sameScene_enqueueMessage app rfl
  | input event => exact .same (fun _ _ _ => Event.noConfusion) (sameScene_handleInputEvent h)

/-! ## Roles -/

/-- Smithay's rule for the roles of surfaces: one that ever has a toplevel has no popup, and is no
subsurface. -/
structure KeepsRoles (roots : Set ObjectId) (call : Call) : Prop where
  toplevel : ∀ surface title appId, call.event = .newToplevel surface title appId → surface ∈ roots
  popup : ∀ surface parent positioner, call.event = .newPopup surface parent positioner ∨
    call.event = .repositionRequest surface parent positioner → surface ∉ roots
  subsurface : ∀ surface ∈ roots, call.env.ancestors surface = []

/-- An event that keeps to the roles. -/
def InRole (roots : Set ObjectId) : Event → Prop
  | .newToplevel surface _ _ => surface ∈ roots
  | .newPopup surface _ _ | .repositionRequest surface _ _ => surface ∉ roots
  | _ => True

theorem keepsRoles_of {roots : Set ObjectId} {call : Call}
    (hancestors : ∀ surface ∈ roots, call.env.ancestors surface = [])
    (hevent : InRole roots call.event) : KeepsRoles roots call := by
  refine ⟨fun surface title appId h => ?_, fun surface parent positioner h => ?_, hancestors⟩
  · rw [h] at hevent
    exact hevent
  · obtain h | h := h
    · rw [h] at hevent
      exact hevent
    · rw [h] at hevent
      exact hevent

/-- The windows and the popups are those of surfaces with these roles. -/
structure RolesKept (roots : Set ObjectId) (app : App) : Prop where
  toplevels : ∀ surface id, app.surfaceToWindow.get? surface = some id → surface ∈ roots
  popups : ∀ surface ∈ roots, app.popupRoutes.get? surface = none

variable {roots : Set ObjectId}

theorem RolesKept.of_places (hs : RolesKept roots app)
    (hroots : app'.surfaceToWindow = app.surfaceToWindow)
    (hplaces : ∀ key, (app'.popupRoutes.get? key).map PopupRoute.place =
      (app.popupRoutes.get? key).map PopupRoute.place) : RolesKept roots app' := by
  refine ⟨fun surface id h => hs.toplevels surface id (hroots ▸ h), fun surface hsurface => ?_⟩
  have hplace := hplaces surface
  rw [hs.popups surface hsurface] at hplace
  simpa using hplace

theorem RolesKept.created (hs : RolesKept roots app) (hsurface : surface ∈ roots)
    (title appId : String) : RolesKept roots (app.newToplevel surface title appId) := by
  obtain ⟨hsurfaces, -, hplaces⟩ := newToplevel_spec app surface title appId
  refine ⟨fun s i hi => ?_, fun s hs' => ?_⟩
  · rw [hsurfaces, Table.get?_insert] at hi
    split at hi
    · rename_i hs'
      exact hs' ▸ hsurface
    · exact hs.toplevels s i hi
  · have hplace := hplaces s
    rw [hs.popups s hs'] at hplace
    simpa using hplace

theorem RolesKept.closed (hs : RolesKept roots app) (env : Env)
    (hroot : app.surfaceToWindow.get? surface = some id) :
    RolesKept roots (app.toplevelDestroyed env surface) := by
  obtain ⟨hsurfaces, -, hplaces⟩ := toplevelDestroyed_spec env hroot
  refine ⟨fun s i hi => ?_, fun s hs' => ?_⟩
  · rw [hsurfaces, Table.get?_remove] at hi
    split at hi
    · cases hi
    · exact hs.toplevels s i hi
  · have hplace := hplaces s
    rw [hs.popups s hs'] at hplace
    simpa using hplace

/-- A popup is placed on top, or nothing happens. -/
theorem routePopup_cases (app : App) (env : Env) (surface : ObjectId) (parent : Option ObjectId)
    (positioner : PositionerState) :
    (app.routePopup env surface parent positioner).1 = app ∨
      ∃ route : PopupRoute, route.surface = surface ∧
        (app.routePopup env surface parent positioner).1 =
          { app with
            popupRoutes := app.popupRoutes.insert surface route
            popupOrder := app.popupOrder.filter (· ≠ surface) ++ [surface] } := by
  unfold App.routePopup
  split
  · exact .inl rfl
  split
  · exact .inl rfl
  · exact .inr ⟨_, rfl, rfl⟩

theorem RolesKept.routePopup (hs : RolesKept roots app) (hsurface : surface ∉ roots) (env : Env)
    (parent : Option ObjectId) (positioner : PositionerState) :
    RolesKept roots (app.routePopup env surface parent positioner).1 := by
  refine ⟨by simpa using hs.toplevels, fun s hs' => ?_⟩
  have hne : s ≠ surface := fun h => hsurface (h ▸ hs')
  obtain heq | ⟨route, -, heq⟩ := routePopup_cases app env surface parent positioner
  · rw [heq]
    exact hs.popups s hs'
  · rw [heq]
    simpa [hne] using hs.popups s hs'

theorem RolesKept.forgotten (hs : RolesKept roots app) (surface : ObjectId) :
    RolesKept roots (app.forgotten surface) := by
  refine ⟨by simpa using hs.toplevels, fun s hs' => ?_⟩
  rw [get?_popupRoutes_forgotten, hs.popups s hs', ite_self]

theorem tableAction_route {call : Call} {parent : Option ObjectId} {positioner : PositionerState}
    (h : app.tableAction call = some (.route surface parent positioner)) :
    call.event = .newPopup surface parent positioner ∨
      call.event = .repositionRequest surface parent positioner := by
  unfold tableAction at h
  split at h
  · rename_i hevent
    cases h
    exact .inl hevent
  · rename_i hevent
    cases h
    exact .inr hevent
  · cases h
  · cases h
  · split at h
    · cases h
    · simp at h
  · simp at h
  · cases h
  · cases h

theorem RolesKept.step (hs : RolesKept roots app) {call : Call} (hroles : KeepsRoles roots call)
    (h : app.step call = .ok app') : RolesKept roots app' := by
  cases step_tables h with
  | kept _ hkept => exact hs.of_places hkept.surfaceToWindow hkept.places
  | routed haction =>
    exact hs.routePopup (hroles.popup _ _ _ (tableAction_route haction)) _ _ _
  | forgot _ hkept => exact (hs.forgotten _).of_places hkept.surfaceToWindow hkept.places
  | closed _ hroot => exact hs.closed _ hroot
  | created _ hevent => exact hs.created (hroles.toplevel _ _ _ hevent) _ _

end App
end VBox.Compositor
