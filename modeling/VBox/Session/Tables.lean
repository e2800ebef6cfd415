import VBox.Session.Modes

/-!
# Session.Tables

The tables of the compositor refer to each other, and every callback changes a few of them.

* `Consistent`: what they owe each other.
* `step_tables`: what a callback does to them. It keeps them, or routes a popup, forgets a surface,
  closes a window or opens one.
* `tables_consistent`: they are consistent in every session that opens fewer than `2 ^ 64` windows.
  With more, two windows share an id (`shared_window_id`).
-/

namespace VBox.Compositor

open Raster

/-- Where the surface of a popup is shown. -/
def PopupRoute.place (route : PopupRoute) : UInt64 × Int32 × Int32 := (route.windowId, route.x, route.y)

namespace App

/-- Every reference between the tables is answered. -/
structure Consistent (app : App) : Prop where
  root : ∀ surface id, app.surfaceToWindow.get? surface = some id ↔
    (app.windows.get? id).map (·.surface) = some surface
  active : ∀ id, app.activeWindowId = some id → app.windows.contains id = true
  nodup : app.popupOrder.Nodup
  order : ∀ key, key ∈ app.popupOrder ↔ app.popupRoutes.contains key = true
  routes : ∀ key route, app.popupRoutes.get? key = some route →
    app.windows.contains route.windowId = true
  children : ∀ key, app.childSurfaces.contains key = app.childSurfaceWindow.contains key
  childWindows : ∀ key id, app.childSurfaceWindow.get? key = some id →
    app.windows.contains id = true
  rects : ∀ key, app.childSurfaceLastRect.contains key = true →
    app.childSurfaces.contains key = true

variable {app app' app'' : App} {env : Env} {surface : ObjectId} {id : UInt64}

/-- The windows of roots and the roots of windows. -/
theorem Consistent.inverse (hs : Consistent app) :
    Table.Inverse app.surfaceToWindow.get? fun id => (app.windows.get? id).map (·.surface) :=
  hs.root

theorem Consistent.root_contains (hs : Consistent app)
    (h : app.surfaceToWindow.get? surface = some id) : app.windows.contains id = true := by
  obtain ⟨window, hwindow, -⟩ := Option.map_eq_some_iff.1 ((hs.root surface id).1 h)
  exact Table.contains_of_get? hwindow

theorem Consistent.offsetLoop_contains (hs : Consistent app) {current : ObjectId}
    {ancestors : List ObjectId} {x₀ y₀ x y : Int32}
    (h : app.offsetLoop env current ancestors x₀ y₀ = some (id, x, y)) :
    app.windows.contains id = true := by
  fun_induction offsetLoop app env current ancestors x₀ y₀ with
  | case1 _ _ _ _ windowId hroot =>
    cases h
    exact hs.root_contains hroot
  | case2 _ _ _ _ _ route hroute =>
    cases h
    exact hs.routes _ route hroute
  | case3 => cases h
  | case4 _ _ _ _ _ _ _ _ ih => exact ih h

/-- A surface is shown in a window that is there. -/
theorem Consistent.offset_contains (hs : Consistent app) {x y : Int32}
    (h : app.surfaceWindowOffset env surface = some (id, x, y)) : app.windows.contains id = true :=
  hs.offsetLoop_contains h

/-! ## What keeps the tables -/

/-- The same windows and popups with other contents, and no new record of a rectangle. -/
structure SameTables (app app' : App) : Prop where
  surfaceToWindow : app'.surfaceToWindow = app.surfaceToWindow
  nextWindowId : app'.nextWindowId = app.nextWindowId
  roots : ∀ id, (app'.windows.get? id).map (·.surface) = (app.windows.get? id).map (·.surface)
  activeWindowId : app'.activeWindowId = app.activeWindowId
  popupOrder : app'.popupOrder = app.popupOrder
  places : ∀ key, (app'.popupRoutes.get? key).map PopupRoute.place =
    (app.popupRoutes.get? key).map PopupRoute.place
  childSurfaceWindow : app'.childSurfaceWindow = app.childSurfaceWindow
  childSurfaces : app'.childSurfaces = app.childSurfaces
  rects : ∀ key, app'.childSurfaceLastRect.contains key = true →
    app.childSurfaceLastRect.contains key = true

/-- The surfaces of windows and popups are where they were, and the tables stay consistent. -/
structure Kept (app app' : App) : Prop where
  surfaceToWindow : app'.surfaceToWindow = app.surfaceToWindow
  nextWindowId : app'.nextWindowId = app.nextWindowId
  places : ∀ key, (app'.popupRoutes.get? key).map PopupRoute.place =
    (app.popupRoutes.get? key).map PopupRoute.place
  consistent : Consistent app → Consistent app'

theorem Kept.refl (app : App) : Kept app app := ⟨rfl, rfl, fun _ => rfl, fun h => h⟩

theorem Kept.trans (h : Kept app app') (h' : Kept app' app'') : Kept app app'' :=
  ⟨h'.surfaceToWindow.trans h.surfaceToWindow, h'.nextWindowId.trans h.nextWindowId,
    fun key => (h'.places key).trans (h.places key), fun hs => h'.consistent (h.consistent hs)⟩

theorem SameTables.contains (h : SameTables app app') (id : UInt64) :
    app'.windows.contains id = app.windows.contains id := by
  have hroots := congrArg Option.isSome (h.roots id)
  simpa [Table.contains] using hroots

theorem SameTables.kept (h : SameTables app app') : Kept app app' := by
  refine ⟨h.surfaceToWindow, h.nextWindowId, h.places, fun hs => ?_⟩
  have hroutes : ∀ key, app'.popupRoutes.contains key = app.popupRoutes.contains key := by
    intro key
    have hplaces := congrArg Option.isSome (h.places key)
    simpa [Table.contains] using hplaces
  exact
    { root := fun surface id => by rw [h.surfaceToWindow, h.roots]; exact hs.root surface id
      active := fun id => by rw [h.activeWindowId, h.contains]; exact hs.active id
      nodup := by rw [h.popupOrder]; exact hs.nodup
      order := fun key => by rw [h.popupOrder, hroutes]; exact hs.order key
      routes := fun key route' hroute' => by
        have hplace := h.places key
        rw [hroute', Option.map_some] at hplace
        obtain ⟨route, hroute, hsame⟩ := Option.map_eq_some_iff.1 hplace.symm
        have hwindow : route.windowId = route'.windowId := congrArg Prod.fst hsame
        rw [h.contains, ← hwindow]
        exact hs.routes key route hroute
      children := fun key => by rw [h.childSurfaces, h.childSurfaceWindow]; exact hs.children key
      childWindows := fun key id => by
        rw [h.childSurfaceWindow, h.contains]; exact hs.childWindows key id
      rects := fun key hrect => by rw [h.childSurfaces]; exact hs.rects key (h.rects key hrect) }

theorem SameTables.refl (app : App) : SameTables app app :=
  ⟨rfl, rfl, fun _ => rfl, rfl, rfl, fun _ => rfl, rfl, rfl, fun _ h => h⟩

theorem SameTables.trans (h : SameTables app app') (h' : SameTables app' app'') :
    SameTables app app'' :=
  ⟨h'.surfaceToWindow.trans h.surfaceToWindow, h'.nextWindowId.trans h.nextWindowId,
    fun id => (h'.roots id).trans (h.roots id), h'.activeWindowId.trans h.activeWindowId,
    h'.popupOrder.trans h.popupOrder, fun key => (h'.places key).trans (h.places key),
    h'.childSurfaceWindow.trans h.childSurfaceWindow, h'.childSurfaces.trans h.childSurfaces,
    fun key hrect => h.rects key (h'.rects key hrect)⟩

theorem same_enqueueMessage (app : App) (msg : Message) : SameTables app (app.enqueueMessage msg) :=
  ⟨rfl, rfl, fun _ => rfl, rfl, rfl, fun _ => rfl, rfl, rfl, fun _ h => h⟩

theorem same_enqueueTiles (app : App) (tiles : List FrameTile) :
    SameTables app (app.enqueueTiles tiles) :=
  ⟨rfl, rfl, fun _ => rfl, rfl, rfl, fun _ => rfl, rfl, rfl, fun _ h => h⟩

theorem same_cacheBuffer (app : App) (surface : ObjectId) (buffer : CommitBuffer) :
    SameTables app (app.cacheBuffer surface buffer) := by
  cases buffer <;> exact ⟨rfl, rfl, fun _ => rfl, rfl, rfl, fun _ => rfl, rfl, rfl, fun _ h => h⟩

theorem same_updatePopupSize (app : App) (surface : ObjectId) (width height : UInt32) :
    SameTables app (app.updatePopupSize surface width height) := by
  refine ⟨rfl, rfl, fun _ => rfl, rfl, rfl, fun key => ?_, rfl, rfl, fun _ h => h⟩
  simp only [updatePopupSize, Table.get?_modify]
  split
  · rename_i hkey
    rw [hkey, Option.map_map]
    rfl
  · rfl

theorem same_setToplevelActivation (app : App) (activeId : Option UInt64) :
    SameTables app (app.setToplevelActivation activeId) := by
  refine ⟨rfl, rfl, fun i => ?_, rfl, rfl, fun _ => rfl, rfl, rfl, fun _ h => h⟩
  simp only [setToplevelActivation, Table.get?_mapValues, Option.map_map]
  rfl

theorem same_setOutputSize (app : App) (size : Size) : SameTables app (app.setOutputSize size) :=
  ⟨rfl, rfl, fun _ => rfl, rfl, rfl, fun _ => rfl, rfl, rfl, fun _ h => h⟩

/-- A window that is replaced by one of the same surface. -/
theorem same_setWindow {window window' : RemoteWindow} (h : app.windows.get? id = some window)
    (hsurface : window'.surface = window.surface) : SameTables app (app.setWindow id window') := by
  refine ⟨rfl, rfl, fun i => ?_, rfl, rfl, fun _ => rfl, rfl, rfl, fun _ h => h⟩
  simp only [setWindow, Table.get?_insert]
  split
  · rename_i hi
    rw [hi, h, Option.map_some, Option.map_some, hsurface]
  · rfl

theorem same_resizeRootWindow (app : App) (id : UInt64) (width height : UInt32) :
    SameTables app (app.resizeRootWindow id width height).1 := by
  unfold resizeRootWindow
  split
  · exact .refl app
  · rename_i window hwindow
    simp only
    split
    · exact .refl app
    · exact same_setWindow hwindow rfl

/-- A request for a mode changes one window, and perhaps tells the viewer. -/
theorem same_perform (app : App) (env : Env) (id : UInt64) (r : ModeRequest) :
    SameTables app (app.perform env id r) := by
  cases hwindow : app.windows.get? id with
  | none => rw [perform_of_none hwindow]; exact .refl app
  | some window =>
    cases r with
    | resize width height =>
      have hset : SameTables app ((app.setOutputSize (nonzeroSize (width, height))).setWindow id
          ({ window with mode := .normal }.configure (nonzeroSize (width, height)) false false)) :=
        (same_setOutputSize app _).trans (same_setWindow hwindow rfl)
      simp only [perform, requestWindowResize, hwindow]
      split
      · exact .refl app
      · split
        · exact hset.trans (same_enqueueMessage _ _)
        · exact hset
    | maximize =>
      simp only [perform, requestWindowMaximizeById, hwindow]
      split
      · exact .refl app
      · exact same_setWindow hwindow rfl
    | unmaximize suppress =>
      simp only [perform, requestWindowUnmaximizeById, hwindow]
      split
      · exact same_setWindow hwindow rfl
      · split
        · exact .refl app
        · exact same_setWindow hwindow rfl
    | fullscreen =>
      simp only [perform, requestWindowFullscreenById, hwindow]
      refine SameTables.trans ?_ (same_enqueueMessage _ _)
      split
      · exact .refl app
      · exact same_setWindow hwindow rfl
    | unfullscreen suppress =>
      simp only [perform, requestWindowUnfullscreenById, hwindow]
      split
      · exact same_setWindow hwindow rfl
      · refine SameTables.trans ?_ (same_enqueueMessage _ _)
        split
        · exact .refl app
        · exact same_setWindow hwindow rfl

theorem same_repaintMovedChildSurfaces {first : Bool}
    (h : app.repaintMovedChildSurfaces env id first = .ok app') : SameTables app app' := by
  obtain ⟨-, rfl⟩ | ⟨window, m, -, hm, rfl⟩ := repaintMovedChildSurfaces_eq h
  · exact .refl _
  · have hrects : SameTables app { app with childSurfaceLastRect := m.lastRect } := by
      refine ⟨rfl, rfl, fun _ => rfl, rfl, rfl, fun _ => rfl, rfl, rfl, fun key hkey => ?_⟩
      by_contra hnone
      rw [Table.contains, Bool.not_eq_true, Option.isSome_eq_false_iff, Option.isNone_iff_eq_none]
        at hnone
      simp [Table.contains, movedChildren_lastRect hm key hnone] at hkey
    exact hrects.trans (same_enqueueTiles _ _)

theorem same_commitRoot {tile : FrameTile} (h : app.commitRoot env surface id tile = .ok app') :
    SameTables app app' := by
  have hresize := (same_updatePopupSize app surface tile.w tile.h).trans
    (same_resizeRootWindow _ id tile.w tile.h)
  simp only [commitRoot] at h
  refine SameTables.trans (SameTables.trans ?_ (same_enqueueMessage _ _))
    (same_repaintMovedChildSurfaces h)
  split
  · exact hresize.trans (same_enqueueMessage _ _)
  · exact hresize

/-! ## The writes -/

/-- A window takes the focus from whatever had it. -/
theorem Consistent.focusWindow (hs : Consistent { app with activeWindowId := none })
    (hlive : app.windows.contains id = true) : Consistent (app.focusWindow id) := by
  obtain ⟨window, hwindow⟩ := (app.windows.contains_iff id).1 hlive
  have hactive : Consistent { app with activeWindowId := some id } := by
    refine { hs with active := fun i hi => ?_ }
    cases hi
    exact hlive
  simp only [App.focusWindow, hwindow]
  split
  · exact (same_setToplevelActivation _ _).kept.consistent hactive
  · exact hactive

theorem Consistent.unfocused (hs : Consistent app) : Consistent { app with activeWindowId := none } :=
  { hs with active := fun _ hi => (nomatch hi) }

theorem kept_focusWindow (app : App) (id : UInt64) : Kept app (app.focusWindow id) := by
  cases hwindow : app.windows.get? id with
  | none => simp only [App.focusWindow, hwindow]; exact .refl app
  | some window =>
    have hconsistent (hs : Consistent app) : Consistent (app.focusWindow id) :=
      hs.unfocused.focusWindow (Table.contains_of_get? hwindow)
    simp only [App.focusWindow, hwindow] at hconsistent ⊢
    split
    · rename_i hchanged
      rw [if_pos hchanged] at hconsistent
      exact ⟨rfl, rfl, fun _ => rfl, hconsistent⟩
    · rename_i hchanged
      rw [if_neg hchanged] at hconsistent
      exact ⟨rfl, rfl, fun _ => rfl, hconsistent⟩

theorem kept_clearFocus (app : App) : Kept app app.clearFocus := by
  unfold clearFocus
  split
  · exact .refl app
  · have hactive : Kept app { app with activeWindowId := none } :=
      ⟨rfl, rfl, fun _ => rfl, fun hs => { hs with active := fun _ hi => (nomatch hi) }⟩
    exact hactive.trans (same_setToplevelActivation _ _).kept

/-- A child surface is tracked for the window it is shown in. -/
theorem kept_trackChild {x y : Int32}
    (hoffset : app.surfaceWindowOffset env surface = some (id, x, y)) :
    Kept app (app.trackChild surface id) := by
  refine ⟨rfl, rfl, fun _ => rfl, fun hs =>
    { hs with
      children := fun key => ?_
      childWindows := fun key i hi => ?_
      rects := fun key hrect => ?_ }⟩
  · simp only [trackChild, Table.contains_insert, hs.children key]
  · simp only [trackChild, Table.get?_insert] at hi
    split at hi
    · cases hi
      exact hs.offset_contains hoffset
    · exact hs.childWindows key i hi
  · simp only [trackChild, Table.contains_insert, hs.rects key hrect, Bool.or_true]

theorem kept_commitChild {x y : Int32} {tile : FrameTile}
    (htracked : app.childSurfaces.contains surface = true)
    (h : app.commitChild env surface id x y tile = .ok app') : Kept app app' := by
  rw [commitChild_eq h]
  refine Kept.trans (Kept.trans (same_updatePopupSize app surface tile.w tile.h).kept ?_)
    (same_enqueueTiles _ _).kept
  refine ⟨rfl, rfl, fun _ => rfl, fun hs => { hs with rects := fun key hrect => ?_ }⟩
  simp only [Table.contains_insert, Bool.or_eq_true, decide_eq_true_eq] at hrect
  obtain rfl | hrect := hrect
  · exact htracked
  · exact hs.rects key hrect

theorem Consistent.clearChildSurfaceTracking (hs : Consistent app) (key : ObjectId) :
    Consistent (app.clearChildSurfaceTracking key) := by
  refine
    { hs with
      children := fun k => ?_
      childWindows := fun k i hi => ?_
      rects := fun k hrect => ?_ }
  · simp only [App.clearChildSurfaceTracking, Table.contains_remove, hs.children k]
  · simp only [App.clearChildSurfaceTracking, Table.get?_remove] at hi
    split at hi
    · cases hi
    · exact hs.childWindows k i hi
  · simp only [App.clearChildSurfaceTracking, Table.contains_remove, Bool.and_eq_true] at hrect ⊢
    exact ⟨hrect.1, hs.rects k hrect.2⟩

theorem Consistent.removePopupRouteForSurface (hs : Consistent app) (key : ObjectId) :
    Consistent (app.removePopupRouteForSurface key).1 := by
  unfold App.removePopupRouteForSurface
  split
  · exact hs
  · refine
      { hs with
        nodup := hs.nodup.filter _
        order := fun k => ?_
        routes := fun k route hroute => ?_ }
    · simp [hs.order k, and_comm]
    · simp only [Table.get?_remove] at hroute
      split at hroute
      · cases hroute
      · exact hs.routes k route hroute

theorem Consistent.routePopup (hs : Consistent app) (env : Env) (surface : ObjectId)
    (parent : Option ObjectId) (positioner : PositionerState) :
    Consistent (app.routePopup env surface parent positioner).1 := by
  unfold App.routePopup
  split
  · exact hs
  · split
    · exact hs
    · rename_i windowId x y hoffset
      refine
        { hs with
          nodup := ?_
          order := fun k => ?_
          routes := fun k route hroute => ?_ }
      · have hnew : surface ∉ app.popupOrder.filter (· ≠ surface) := by simp
        have hnodup := (hs.nodup.filter (· ≠ surface)).concat hnew
        rwa [List.concat_eq_append] at hnodup
      · simp only [List.mem_append, List.mem_filter, List.mem_singleton, Table.contains_insert,
          hs.order k, Bool.or_eq_true, decide_eq_true_eq]
        by_cases hk : k = surface
        · simp [hk]
        · simp [hk]
      · simp only [Table.get?_insert] at hroute
        split at hroute
        · cases hroute
          exact hs.offset_contains hoffset
        · exact hs.routes k route hroute

/-- A window goes with everything that names it. What is left is consistent once something else has
the focus. -/
theorem Consistent.removeWindow (hs : Consistent app)
    (hroot : app.surfaceToWindow.get? surface = some id) :
    Consistent { app.removeWindow surface id with activeWindowId := none } := by
  have hkept : ∀ i, i ≠ id → app.windows.contains i = true →
      (app.windows.remove id).contains i = true := by
    intro i hi hlive
    simp [hi, hlive]
  refine
    { root := fun s i => ?_
      active := fun _ hi => absurd hi (Option.some_ne_none _).symm
      nodup := hs.nodup.filter _
      order := fun key => ?_
      routes := fun key route hroute => ?_
      children := fun key => ?_
      childWindows := fun key i hi => ?_
      rects := fun key hrect => ?_ }
  · -- the surface and the id go together
    simp only [App.removeWindow, Table.get?_remove, apply_ite (Option.map _), Option.map_none]
    exact hs.inverse.remove hroot s i
  · simp only [App.removeWindow, List.mem_filter, hs.order key]
    exact ⟨fun h => h.2, fun h => ⟨Table.contains_of_retain h, h⟩⟩
  · simp only [App.removeWindow, Table.get?_retain, Option.filter_eq_some_iff, ne_eq,
      decide_eq_true_eq] at hroute
    exact hkept _ (by simpa using hroute.2) (hs.routes key route hroute.1)
  · have hsub : (app.childSurfaceWindow.retain fun _ windowId => windowId ≠ id).contains key = true →
        app.childSurfaces.contains key = true := by
      intro hkey
      rw [hs.children key]
      exact Table.contains_of_retain hkey
    simp only [App.removeWindow, Table.contains_retain_key]
    exact Bool.and_eq_right_iff_imp.2 hsub
  · simp only [App.removeWindow, Table.get?_retain, Option.filter_eq_some_iff] at hi
    exact hkept _ (by simpa using hi.2) (hs.childWindows key i hi.1)
  · simp only [App.removeWindow, Table.contains_retain_key, Bool.and_eq_true] at hrect ⊢
    exact ⟨hs.rects key hrect.1, hrect.2⟩

theorem Consistent.toplevelDestroyed (hs : Consistent app) (env : Env) (surface : ObjectId) :
    Consistent (app.toplevelDestroyed env surface) := by
  unfold App.toplevelDestroyed
  split
  · exact hs
  · rename_i id hroot
    have hclosed := hs.removeWindow hroot
    refine (same_enqueueMessage _ _).kept.consistent ?_
    split
    · rename_i hactive
      unfold focusNext
      split
      · rename_i nextId hnext
        exact hclosed.focusWindow (List.find?_some hnext)
      · simp only [clearFocus, hactive]
        exact (same_setToplevelActivation _ _).kept.consistent hclosed
    · rename_i hactive
      refine { hclosed with active := fun i hi => ?_ }
      have hlive := hs.active i hi
      have hne : i ≠ id := fun h => hactive (h ▸ hi)
      simp [App.removeWindow, hne, hlive]

/-- A new window, under an id that no window has and for a surface that has no window. -/
theorem Consistent.newToplevel (hs : Consistent app) (title appId : String)
    (hsurface : app.surfaceToWindow.get? surface = none)
    (hid : app.windows.get? app.nextWindowId = none) :
    Consistent (app.newToplevel surface title appId) := by
  refine (same_enqueueMessage _ _).kept.consistent ?_
  refine Consistent.focusWindow ?_ (by simp)
  have hkept : ∀ i window, app.windows.contains i = true →
      (app.windows.insert app.nextWindowId window).contains i = true := by
    intro i window hlive
    simp [hlive]
  refine
    { root := fun s i => ?_
      active := fun _ hi => (nomatch hi)
      nodup := hs.nodup
      order := hs.order
      routes := fun key route hroute => hkept _ _ (hs.routes key route hroute)
      children := hs.children
      childWindows := fun key i hi => hkept _ _ (hs.childWindows key i hi)
      rects := hs.rects }
  simp only [Table.get?_insert, apply_ite (Option.map _), Option.map_some]
  exact hs.inverse.insert hsurface (by rw [hid, Option.map_none]) s i

/-! ## What a callback does -/

inductive TableAction where
  | route (surface : ObjectId) (parent : Option ObjectId) (positioner : PositionerState)
  | forget (surface : ObjectId)
  | close (surface : ObjectId) (id : UInt64)
  | create (surface : ObjectId)

/-- What a callback does to the tables besides keeping them. -/
def tableAction (app : App) (call : Call) : Option TableAction :=
  match call.event with
  | .newPopup surface parent positioner | .repositionRequest surface parent positioner =>
    some (.route surface parent positioner)
  | .destroyed surface | .popupDestroyed surface => some (.forget surface)
  | .commit surface .removed _ =>
    -- a child without a buffer is forgotten
    if app.surfaceToWindow.contains surface then none
    else (app.surfaceWindowOffset call.env surface).map fun _ => .forget surface
  | .toplevelDestroyed surface => (app.surfaceToWindow.get? surface).map (.close surface)
  | .newToplevel surface _ _ => some (.create surface)
  | _ => none

/-- The tables without a surface. -/
def forgotten (app : App) (surface : ObjectId) : App :=
  (app.removePopupRouteForSurface surface).1.clearChildSurfaceTracking surface

/-- What `step_tables` says. -/
inductive TableStep (app : App) (call : Call) : App → Prop
  | kept {app' : App} : app.tableAction call = none → Kept app app' → TableStep app call app'
  | routed {surface : ObjectId} {parent : Option ObjectId} {positioner : PositionerState} :
      app.tableAction call = some (.route surface parent positioner) →
      TableStep app call (app.routePopup call.env surface parent positioner).1
  | forgot {surface : ObjectId} {app' : App} : app.tableAction call = some (.forget surface) →
      Kept (app.forgotten surface) app' → TableStep app call app'
  | closed {surface : ObjectId} {id : UInt64} : app.tableAction call = some (.close surface id) →
      app.surfaceToWindow.get? surface = some id →
      TableStep app call (app.toplevelDestroyed call.env surface)
  | created {surface : ObjectId} {title appId : String} :
      app.tableAction call = some (.create surface) → call.event = .newToplevel surface title appId →
      TableStep app call (app.newToplevel surface title appId)

theorem kept_forSurface {request : UInt64 → App} (h : ∀ id, Kept app (request id)) :
    Kept app (app.forSurface surface request) := by
  unfold forSurface
  split
  · exact .refl app
  · exact h _

theorem kept_moveRequest (app : App) (env : Env) (surface : ObjectId) :
    Kept app (app.moveRequest env surface) := by
  refine kept_forSurface fun id => Kept.trans (SameTables.kept ?_) (same_enqueueMessage _ _).kept
  refine ⟨rfl, rfl, fun i => ?_, rfl, rfl, fun _ => rfl, rfl, rfl, fun _ h => h⟩
  simp only [Table.get?_modify]
  split
  · rename_i hi
    rw [hi, Option.map_map]
    rfl
  · rfl

theorem kept_handleInputEvent {event : InputEvent} (h : app.handleInputEvent env event = .ok app') :
    Kept app app' := by
  cases event with
  | pointerMotion => cases h; exact .refl app
  | pointerButton | pointerScroll | text | preedit => cases h; exact kept_focusWindow app _
  | key i keycode state =>
    simp only [handleInputEvent] at h
    split at h
    · cases h; exact kept_focusWindow app i
    · cases h
  | focus i focused =>
    cases h
    split
    · exact kept_focusWindow app i
    · unfold clearWindowFocus
      split
      · exact kept_clearFocus app
      · exact .refl app
  | resize i width height => cases h; exact (same_perform app env i (.resize width height)).kept
  | toggleMaximize i =>
    cases h
    unfold toggleWindowMaximize
    split
    · exact .refl app
    · split
      · exact (same_perform app env i (.unmaximize false)).kept
      · exact (same_perform app env i .maximize).kept
  | setFullscreen i fullscreen =>
    cases h
    unfold setWindowFullscreen
    split
    · exact (same_perform app env i .fullscreen).kept
    · exact (same_perform app env i (.unfullscreen false)).kept
  | close => cases h; exact .refl app

theorem forgotten_trackChild (app : App) (surface : ObjectId) (id : UInt64) :
    ((((app.trackChild surface id).cacheBuffer surface .removed).removePopupRouteForSurface
      surface).1.clearChildSurfaceTracking surface) = app.forgotten surface := by
  unfold forgotten removePopupRouteForSurface trackChild cacheBuffer
  cases app.popupRoutes.get? surface with
  | none => simp [clearChildSurfaceTracking]
  | some route => simp [clearChildSurfaceTracking]

theorem tableAction_commit {buffer : CommitBuffer} {damageCount : Nat} (h : buffer ≠ .removed) :
    app.tableAction { env, event := .commit surface buffer damageCount } = none := by
  cases buffer with
  | removed => exact absurd rfl h
  | new | none => rfl

theorem step_tables_commit {buffer : CommitBuffer} {damageCount : Nat}
    (h : app.commit env surface buffer damageCount = .ok app') :
    TableStep app { env, event := .commit surface buffer damageCount } app' := by
  have hroot {windowId : UInt64} (hroot : app.surfaceToWindow.get? surface = some windowId) :
      app.tableAction { env, event := .commit surface buffer damageCount } = none := by
    by_cases hremoved : buffer = .removed
    · simp [tableAction, hremoved, Table.contains, hroot]
    · exact tableAction_commit hremoved
  have hcache := (same_cacheBuffer app surface buffer).kept
  have htrack {windowId : UInt64} {x y : Int32}
      (hoffset : app.surfaceWindowOffset env surface = some (windowId, x, y)) :
      Kept app ((app.trackChild surface windowId).cacheBuffer surface buffer) :=
    (kept_trackChild hoffset).trans (same_cacheBuffer _ surface buffer).kept
  cases commit_cases h with
  | dropped hoffset =>
    refine .kept ?_ (.refl app)
    by_cases hremoved : buffer = .removed
    · simp [tableAction, hremoved, hoffset]
    · exact tableAction_commit hremoved
  | rootTile hwindow _ hcommit =>
    exact .kept (hroot hwindow) (hcache.trans (same_commitRoot hcommit).kept)
  | rootNone hwindow _ hrepaint =>
    exact .kept (hroot hwindow) (hcache.trans (same_repaintMovedChildSurfaces hrepaint).kept)
  | rootError hwindow => exact .kept (hroot hwindow) hcache
  | childTile hwindow hoffset hcopied hcommit =>
    have hremoved : buffer ≠ .removed := by
      rintro rfl
      cases hcopied
    refine .kept (tableAction_commit hremoved) ((htrack hoffset).trans (kept_commitChild ?_ hcommit))
    cases buffer <;> simp [cacheBuffer, trackChild]
  | childNone hwindow hoffset _ hremoved =>
    exact .kept (tableAction_commit hremoved) (htrack hoffset)
  | childRemoved hwindow hoffset hremoved hrepaint =>
    subst hremoved
    rw [forgotten_trackChild] at hrepaint
    have haction : app.tableAction { env, event := .commit surface .removed damageCount } =
        some (.forget surface) := by simp [tableAction, Table.contains, hwindow, hoffset]
    refine .forgot haction ?_
    rw [repaintWindowFromCachedBuffer_eq hrepaint]
    exact (same_enqueueTiles _ _).kept

theorem kept_forgetSurface (h : app.forgetSurface env surface = .ok app') :
    Kept (app.forgotten surface) app' := by
  rw [forgetSurface_eq h]
  exact (same_enqueueTiles _ _).kept

/-- **A callback keeps the tables, or does one thing to them.** -/
theorem step_tables {call : Call} (h : app.step call = .ok app') : TableStep app call app' := by
  obtain ⟨env, event⟩ := call
  cases event with
  | newToplevel surface title appId => cases h; exact .created rfl rfl
  | newPopup surface parent positioner => cases h; exact .routed rfl
  | repositionRequest surface parent positioner => cases h; exact .routed rfl
  | commit surface buffer damageCount => exact step_tables_commit h
  | destroyed surface => exact .forgot rfl (kept_forgetSurface h)
  | popupDestroyed surface => exact .forgot rfl (kept_forgetSurface h)
  | toplevelDestroyed surface =>
    cases h
    cases hroot : app.surfaceToWindow.get? surface with
    | none =>
      refine .kept (by simp [tableAction, hroot]) ?_
      simp only [toplevelDestroyed, hroot]
      exact .refl app
    | some id => exact .closed (by simp [tableAction, hroot]) hroot
  | bufferDestroyed buffer =>
    cases h
    exact .kept rfl ⟨rfl, rfl, fun _ => rfl, fun hs => { hs with }⟩
  | moveRequest surface => cases h; exact .kept rfl (kept_moveRequest app env surface)
  | maximizeRequest surface =>
    cases h
    refine .kept rfl ?_
    unfold maximizeRequest
    split
    · exact .refl app
    · exact kept_forSurface fun id => (same_perform app env id .maximize).kept
  | unmaximizeRequest surface =>
    cases h
    refine .kept rfl ?_
    unfold unmaximizeRequest
    split
    · exact .refl app
    · exact kept_forSurface fun id => (same_perform app env id (.unmaximize true)).kept
  | fullscreenRequest surface =>
    cases h
    exact .kept rfl (kept_forSurface fun id => (same_perform app env id .fullscreen).kept)
  | unfullscreenRequest surface =>
    cases h
    exact .kept rfl (kept_forSurface fun id => (same_perform app env id (.unfullscreen true)).kept)
  | minimizeRequest surface =>
    cases h
    exact .kept rfl (kept_forSurface fun _ => (same_enqueueMessage app _).kept)
  | titleChanged surface title =>
    cases h
    exact .kept rfl (kept_forSurface fun _ => (same_enqueueMessage app _).kept)
  | input event => exact .kept rfl (kept_handleInputEvent h)

theorem kept_of_action {call : Call} (haction : app.tableAction call = none)
    (h : app.step call = .ok app') : Kept app app' := by
  cases step_tables h with
  | kept _ hkept => exact hkept
  | routed hother | forgot hother | closed hother | created hother =>
    rw [haction] at hother
    cases hother

theorem forgot_of_action {call : Call} (haction : app.tableAction call = some (.forget surface))
    (h : app.step call = .ok app') : Kept (app.forgotten surface) app' := by
  cases step_tables h with
  | forgot hforgot hkept =>
    rw [haction] at hforgot
    cases hforgot
    exact hkept
  | kept hother | routed hother | closed hother | created hother =>
    rw [haction] at hother
    cases hother

theorem tableAction_close {call : Call} (h : app.tableAction call = some (.close surface id)) :
    call.event = .toplevelDestroyed surface := by
  unfold tableAction at h
  split at h
  · cases h
  · cases h
  · cases h
  · cases h
  · split at h
    · cases h
    · simp at h
  · rename_i s hevent
    simp only [Option.map_eq_some_iff] at h
    obtain ⟨i, -, heq⟩ := h
    cases heq
    exact hevent
  · cases h
  · cases h

@[simp] theorem surfaceToWindow_routePopup (app : App) (env : Env) (surface : ObjectId)
    (parent : Option ObjectId) (positioner : PositionerState) :
    (app.routePopup env surface parent positioner).1.surfaceToWindow = app.surfaceToWindow := by
  unfold routePopup
  split
  · rfl
  · split <;> rfl

@[simp] theorem nextWindowId_routePopup (app : App) (env : Env) (surface : ObjectId)
    (parent : Option ObjectId) (positioner : PositionerState) :
    (app.routePopup env surface parent positioner).1.nextWindowId = app.nextWindowId := by
  unfold routePopup
  split
  · rfl
  · split <;> rfl

@[simp] theorem surfaceToWindow_forgotten (app : App) (surface : ObjectId) :
    (app.forgotten surface).surfaceToWindow = app.surfaceToWindow := by
  unfold forgotten removePopupRouteForSurface
  split <;> rfl

@[simp] theorem nextWindowId_forgotten (app : App) (surface : ObjectId) :
    (app.forgotten surface).nextWindowId = app.nextWindowId := by
  unfold forgotten removePopupRouteForSurface
  split <;> rfl

theorem Consistent.forgotten (hs : Consistent app) (surface : ObjectId) :
    Consistent (app.forgotten surface) :=
  (hs.removePopupRouteForSurface surface).clearChildSurfaceTracking surface

theorem toplevelDestroyed_spec (env : Env) (hroot : app.surfaceToWindow.get? surface = some id) :
    (app.toplevelDestroyed env surface).surfaceToWindow = app.surfaceToWindow.remove surface ∧
      (app.toplevelDestroyed env surface).nextWindowId = app.nextWindowId ∧
      ∀ key, ((app.toplevelDestroyed env surface).popupRoutes.get? key).map PopupRoute.place =
        ((app.popupRoutes.get? key).filter (·.windowId ≠ id)).map PopupRoute.place := by
  have hfocus (a : App) : Kept a (if a.activeWindowId = some id then a.focusNext env else a) := by
    split
    · unfold focusNext
      split
      · exact kept_focusWindow a _
      · exact kept_clearFocus a
    · exact .refl a
  have hkept := (hfocus (app.removeWindow surface id)).trans
    (same_enqueueMessage _ (.windowEvent (.destroyed id))).kept
  simp only [toplevelDestroyed, hroot]
  exact ⟨hkept.surfaceToWindow, hkept.nextWindowId, hkept.places⟩

theorem newToplevel_spec (app : App) (surface : ObjectId) (title appId : String) :
    (app.newToplevel surface title appId).surfaceToWindow =
        app.surfaceToWindow.insert surface app.nextWindowId ∧
      (app.newToplevel surface title appId).nextWindowId = saturatingAdd app.nextWindowId 1 ∧
      ∀ key, ((app.newToplevel surface title appId).popupRoutes.get? key).map PopupRoute.place =
        (app.popupRoutes.get? key).map PopupRoute.place := by
  have hkept := (kept_focusWindow
      { app with
        nextWindowId := saturatingAdd app.nextWindowId 1
        surfaceToWindow := app.surfaceToWindow.insert surface app.nextWindowId
        windows := app.windows.insert app.nextWindowId
          { toplevel := { size := some (0, 0), maximized := false, fullscreen := false,
                          activated := false }
            surface, size := (1, 1), mode := .normal, lastMoveRequestAt := none } }
      app.nextWindowId).trans (same_enqueueMessage _
        (.windowEvent (.created app.nextWindowId { x := 0, y := 0, w := 1, h := 1 } title appId))).kept
  exact ⟨hkept.surfaceToWindow, hkept.nextWindowId, hkept.places⟩

/-! ## Sessions -/

/-- The surfaces that have a toplevel after a callback. -/
def toplevels (live : Set ObjectId) (call : Call) : Set ObjectId :=
  match call.event with
  | .newToplevel surface _ _ => insert surface live
  | .toplevelDestroyed surface => live \ {surface}
  | _ => live

/-- A toplevel is for a surface that has none. -/
def MayOpen (live : Set ObjectId) (call : Call) : Prop :=
  match call.event with
  | .newToplevel surface _ _ => surface ∉ live
  | _ => True

/-- Smithay's rule for the calls of a session: no surface has two toplevels at a time. -/
def OneToplevel : Set ObjectId → List Call → Prop
  | _, [] => True
  | live, call :: calls => MayOpen live call ∧ OneToplevel (toplevels live call) calls

def opensWindow (call : Call) : Bool :=
  match call.event with
  | .newToplevel _ _ _ => true
  | _ => false

/-- The tables after `n` windows have been opened, where `live` are the surfaces with a toplevel. -/
structure Opened (n : Nat) (live : Set ObjectId) (app : App) : Prop where
  consistent : Consistent app
  next : app.nextWindowId.toNat = min (n + 1) (2 ^ 64 - 1)
  ids : ∀ surface id, app.surfaceToWindow.get? surface = some id → id.toNat ≤ n
  live : ∀ surface id, app.surfaceToWindow.get? surface = some id → surface ∈ live

theorem Opened.of_eq {n : Nat} {live : Set ObjectId} (hs : Opened n live app)
    (hconsistent : Consistent app') (hnext : app'.nextWindowId = app.nextWindowId)
    (hsurfaces : app'.surfaceToWindow = app.surfaceToWindow) : Opened n live app' :=
  ⟨hconsistent, by rw [hnext]; exact hs.next, by rw [hsurfaces]; exact hs.ids,
    by rw [hsurfaces]; exact hs.live⟩

theorem toNat_saturatingAdd_one (n : UInt64) :
    (saturatingAdd n 1).toNat = min (n.toNat + 1) (2 ^ 64 - 1) := by
  have hlt := n.toNat_lt
  have hone : (1 : UInt64).toNat = 1 := rfl
  unfold saturatingAdd
  split
  · rw [UInt64.toNat_add, hone]
    omega
  · show 2 ^ 64 - 1 = _
    omega

theorem Opened.free {n : Nat} {live : Set ObjectId} (hs : Opened n live app)
    (hsurface : surface ∉ live) : app.surfaceToWindow.get? surface = none := by
  cases hget : app.surfaceToWindow.get? surface with
  | none => rfl
  | some id => exact absurd (hs.live surface id hget) hsurface

theorem Opened.create {n : Nat} {live : Set ObjectId} (hs : Opened n live app)
    (hsurface : surface ∉ live) (hfew : n + 1 < 2 ^ 64) (title appId : String) :
    Opened (n + 1) (insert surface live) (app.newToplevel surface title appId) := by
  obtain ⟨hsurfaces, hnext, -⟩ := newToplevel_spec app surface title appId
  have hid : app.nextWindowId.toNat = n + 1 := by rw [hs.next]; omega
  refine ⟨hs.consistent.newToplevel title appId ?_ ?_, ?_, fun s i hi => ?_, fun s i hi => ?_⟩
  · exact hs.free hsurface
  · -- the ids so far are smaller
    cases hget : app.windows.get? app.nextWindowId with
    | none => rfl
    | some window =>
      have hroot := (hs.consistent.root window.surface app.nextWindowId).2 (by rw [hget]; rfl)
      have hle := hs.ids _ _ hroot
      omega
  · rw [hnext, toNat_saturatingAdd_one, hs.next]
    omega
  · rw [hsurfaces, Table.get?_insert] at hi
    split at hi
    · cases hi
      omega
    · have hle := hs.ids s i hi
      omega
  · rw [hsurfaces, Table.get?_insert] at hi
    split at hi
    · rename_i hs'
      exact .inl hs'
    · exact .inr (hs.live s i hi)

theorem Opened.close {n : Nat} {live : Set ObjectId} (hs : Opened n live app) (env : Env)
    (surface : ObjectId) : Opened n (live \ {surface}) (app.toplevelDestroyed env surface) := by
  cases hroot : app.surfaceToWindow.get? surface with
  | none =>
    simp only [toplevelDestroyed, hroot]
    refine { hs with live := fun s i hi => ⟨hs.live s i hi, ?_⟩ }
    rintro rfl
    rw [hroot] at hi
    cases hi
  | some id =>
    obtain ⟨hsurfaces, hnext, -⟩ := toplevelDestroyed_spec env hroot
    have hold : ∀ s i, (app.toplevelDestroyed env surface).surfaceToWindow.get? s = some i →
        s ≠ surface ∧ app.surfaceToWindow.get? s = some i := by
      intro s i hi
      rw [hsurfaces, Table.get?_remove] at hi
      split at hi
      · cases hi
      · rename_i hne
        exact ⟨hne, hi⟩
    refine ⟨hs.consistent.toplevelDestroyed env surface, by rw [hnext]; exact hs.next,
      fun s i hi => hs.ids s i (hold s i hi).2, fun s i hi => ⟨hs.live s i (hold s i hi).2, ?_⟩⟩
    exact (hold s i hi).1

theorem Opened.other {n : Nat} {live : Set ObjectId} {call : Call} (hs : Opened n live app)
    (hnew : ∀ surface title appId, call.event ≠ .newToplevel surface title appId)
    (hclose : ∀ surface, call.event ≠ .toplevelDestroyed surface) (h : app.step call = .ok app') :
    Opened n live app' := by
  cases step_tables h with
  | kept _ hkept =>
    exact hs.of_eq (hkept.consistent hs.consistent) hkept.nextWindowId hkept.surfaceToWindow
  | routed =>
    exact hs.of_eq (hs.consistent.routePopup _ _ _ _) (by simp) (by simp)
  | forgot _ hkept =>
    refine hs.of_eq (hkept.consistent (hs.consistent.forgotten _))
      (hkept.nextWindowId.trans (by simp)) (hkept.surfaceToWindow.trans (by simp))
  | closed haction =>
    obtain ⟨env, event⟩ := call
    exact absurd (tableAction_close haction) (hclose _)
  | created _ hevent => exact absurd hevent (hnew _ _ _)

theorem Opened.step {n : Nat} {live : Set ObjectId} {call : Call} (hs : Opened n live app)
    (hopen : MayOpen live call) (hfew : opensWindow call = true → n + 1 < 2 ^ 64)
    (h : app.step call = .ok app') :
    Opened (if opensWindow call then n + 1 else n) (toplevels live call) app' := by
  obtain ⟨env, event⟩ := call
  cases event with
  | newToplevel surface title appId =>
    cases h
    exact hs.create hopen (hfew rfl) title appId
  | toplevelDestroyed surface =>
    cases h
    exact hs.close env surface
  | _ => exact hs.other (fun _ _ _ => Event.noConfusion) (fun _ => Event.noConfusion) h

/-- The first call of a session, and what is left for the others. -/
theorem Opened.first {call : Call} {calls : List Call} {n : Nat} {live : Set ObjectId}
    (hs : Opened n live app) (horder : OneToplevel live (call :: calls))
    (hfew : n + (call :: calls).countP opensWindow < 2 ^ 64) (h : app.step call = .ok app') :
    ∃ n', Opened n' (toplevels live call) app' ∧ n' + calls.countP opensWindow < 2 ^ 64 := by
  rw [List.countP_cons] at hfew
  refine ⟨if opensWindow call then n + 1 else n, hs.step horder.1 (fun hopens => ?_) h, ?_⟩
  · rw [if_pos hopens] at hfew
    omega
  · cases hopens : opensWindow call with
    | true =>
      rw [if_pos hopens] at hfew
      rw [if_pos rfl]
      omega
    | false =>
      rw [if_neg (by simp [hopens])] at hfew
      rw [if_neg Bool.false_ne_true]
      omega

theorem Opened.run {calls : List Call} {n : Nat} {live : Set ObjectId} (hs : Opened n live app)
    (horder : OneToplevel live calls) (hfew : n + calls.countP opensWindow < 2 ^ 64)
    (h : app.run calls = .ok app') : Consistent app' := by
  induction calls generalizing app n live with
  | nil =>
    cases h
    exact hs.consistent
  | cons call calls ih =>
    obtain ⟨app₁, happ₁, h⟩ := bind_eq_ok.1 h
    obtain ⟨n₁, hs₁, hfew₁⟩ := hs.first horder hfew happ₁
    exact ih hs₁ horder.2 hfew₁ h

theorem opened_start (req : ViewRequest) : Opened 0 ∅ (start req) :=
  ⟨{ root := fun _ _ => by simp [start]
     active := fun _ h => (nomatch h)
     nodup := List.nodup_nil
     order := fun _ => by simp [start, Table.contains]
     routes := fun _ _ h => (nomatch h)
     children := fun _ => rfl
     childWindows := fun _ _ h => (nomatch h)
     rects := fun _ h => (nomatch h) }, rfl, fun _ _ h => (nomatch h), fun _ _ h => (nomatch h)⟩

/-- **The tables are consistent in every state of a session that opens fewer than `2 ^ 64`
windows.** -/
theorem tables_consistent (req : ViewRequest) (calls : List Call) (app : App)
    (horder : OneToplevel ∅ calls) (hfew : calls.countP opensWindow < 2 ^ 64)
    (hrun : (start req).run calls = .ok app) : Consistent app :=
  (opened_start req).run horder (by rwa [Nat.zero_add]) hrun

/-- A window with a popup that is hidden, and another window. -/
theorem tables_consistent_popup :
    ∃ app, (start ⟨"vbox", 640, 480⟩).run
        [{ env := bareEnv, event := .newToplevel 0 "" "" },
          { env := bareEnv, event := .newPopup 1 (some 0)
              { getGeometry := ⟨0, 0, 8, 8⟩, getUnconstrainedGeometry := fun _ => ⟨4, 4, 8, 8⟩ } },
          { env := bareEnv, event := .commit 1 .none 0 },
          { env := bareEnv, event := .commit 1 .removed 0 },
          { env := bareEnv, event := .newToplevel 2 "" "" },
          { env := bareEnv, event := .toplevelDestroyed 0 }] = .ok app ∧
      app.activeWindowId = some 2 ∧ Consistent app := by
  refine ⟨_, rfl, rfl, ?_⟩
  exact tables_consistent ⟨"vbox", 640, 480⟩
    [{ env := bareEnv, event := .newToplevel 0 "" "" },
      { env := bareEnv, event := .newPopup 1 (some 0)
          { getGeometry := ⟨0, 0, 8, 8⟩, getUnconstrainedGeometry := fun _ => ⟨4, 4, 8, 8⟩ } },
      { env := bareEnv, event := .commit 1 .none 0 },
      { env := bareEnv, event := .commit 1 .removed 0 },
      { env := bareEnv, event := .newToplevel 2 "" "" },
      { env := bareEnv, event := .toplevelDestroyed 0 }] _
    (by simp [OneToplevel, MayOpen, toplevels])
    (List.countP_le_length.trans_lt (by simp)) rfl

theorem run_append {calls calls' : List Call} (h : app.run calls = .ok app') :
    app.run (calls ++ calls') = app'.run calls' := by
  unfold run at h ⊢
  rw [List.foldlM_append, h]
  rfl

/-! ## More windows than ids -/

/-- A window is opened and closed again, `k` times. -/
def openClose (k : Nat) : List Call :=
  (List.replicate k
    [{ env := bareEnv, event := .newToplevel 0 "" "" },
      { env := bareEnv, event := .toplevelDestroyed 0 }]).flatten

theorem openClose_succ (k : Nat) :
    openClose (k + 1) = { env := bareEnv, event := .newToplevel 0 "" "" } ::
      { env := bareEnv, event := .toplevelDestroyed 0 } :: openClose k := rfl

theorem oneToplevel_openClose (k : Nat) (calls : List Call) (h : OneToplevel ∅ calls) :
    OneToplevel ∅ (openClose k ++ calls) := by
  induction k with
  | zero => exact h
  | succ k ih =>
    rw [openClose_succ]
    simpa [OneToplevel, MayOpen, toplevels] using ih

/-- Each time takes an id. -/
theorem run_openClose (k : Nat) (app : App) : ∃ app', app.run (openClose k) = .ok app' ∧
    app'.nextWindowId.toNat = min (app.nextWindowId.toNat + k) (2 ^ 64 - 1) := by
  induction k generalizing app with
  | zero =>
    have hlt := app.nextWindowId.toNat_lt
    exact ⟨app, rfl, by omega⟩
  | succ k ih =>
    obtain ⟨hsurfaces, hnext, -⟩ := newToplevel_spec app 0 "" ""
    have hroot : (app.newToplevel 0 "" "").surfaceToWindow.get? 0 = some app.nextWindowId := by
      rw [hsurfaces, Table.get?_insert, if_pos rfl]
    obtain ⟨-, hnext', -⟩ := toplevelDestroyed_spec bareEnv hroot
    obtain ⟨app', hrun, hid⟩ := ih ((app.newToplevel 0 "" "").toplevelDestroyed bareEnv 0)
    refine ⟨app', ?_, ?_⟩
    · rw [openClose_succ]
      exact hrun
    · rw [hid, hnext', hnext, toNat_saturatingAdd_one]
      omega

/-- When the ids are used up, two windows get the same one and the first is lost. -/
theorem shared_window_id : ∃ calls app, OneToplevel ∅ calls ∧
    (start ⟨"vbox", 640, 480⟩).run calls = .ok app ∧ ¬ Consistent app := by
  obtain ⟨app, hrun, hid⟩ := run_openClose (2 ^ 64 - 2) (start ⟨"vbox", 640, 480⟩)
  refine ⟨openClose (2 ^ 64 - 2) ++
      [{ env := bareEnv, event := .newToplevel 0 "" "" },
        { env := bareEnv, event := .newToplevel 1 "" "" }],
    (app.newToplevel 0 "" "").newToplevel 1 "" "", ?_, ?_, fun hs => ?_⟩
  · exact oneToplevel_openClose _ _ (by simp [OneToplevel, MayOpen, toplevels])
  · rw [run_append hrun]
    rfl
  · obtain ⟨hsurfaces, hnext, -⟩ := newToplevel_spec app 0 "" ""
    obtain ⟨hsurfaces', -, -⟩ := newToplevel_spec (app.newToplevel 0 "" "") 1 "" ""
    have hsame : (app.newToplevel 0 "" "").nextWindowId = app.nextWindowId := by
      rw [hnext]
      apply UInt64.toNat_inj.1
      have hone : (start ⟨"vbox", 640, 480⟩).nextWindowId.toNat = 1 := rfl
      rw [toNat_saturatingAdd_one, hid, hone]
      omega
    have h0 := (hs.root 0 app.nextWindowId).1 (by
      rw [hsurfaces', hsurfaces, Table.get?_insert, if_neg (by decide), Table.get?_insert, if_pos rfl])
    have h1 := (hs.root 1 app.nextWindowId).1 (by
      rw [hsurfaces', hsame, Table.get?_insert, if_pos rfl])
    rw [h0] at h1
    cases h1

end App
end VBox.Compositor
