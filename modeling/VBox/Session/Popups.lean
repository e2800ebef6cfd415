import VBox.Session.Tables

/-!
# Session.Popups

A popup from the side of its client, and what becomes of its commits. A `Popup` is placed by
`new_popup` and by every `reposition_request` that finds its parent, and it is hidden while it has no
buffer. The compositor forgets the route of a hidden popup and does not get it back by itself.

* `Routed`: the compositor has the route of a popup exactly while it is not hidden.
* `popup_shown_iff`: a buffer of a popup is shown exactly then.
-/

namespace VBox.Compositor

open Raster

/-- A popup that was placed in a window and has not gone. -/
structure Popup where
  windowId : UInt64
  x : Int32
  y : Int32
  /-- It has attached no buffer since it was placed last. -/
  hidden : Bool
  deriving DecidableEq

def Popup.place (popup : Popup) : UInt64 × Int32 × Int32 := (popup.windowId, popup.x, popup.y)

namespace App

/-- Where `route_popup` places a popup, when it does. -/
def placedBy (app : App) (env : Env) (surface : ObjectId) (parent : Option ObjectId)
    (positioner : PositionerState) : Option Popup :=
  let (routed, done) := app.routePopup env surface parent positioner
  if done then
    (routed.popupRoutes.get? surface).map fun route =>
      { windowId := route.windowId, x := route.x, y := route.y, hidden := false }
  else none

/-- What a callback means for the popup of a surface. -/
def popupStep (surface : ObjectId) (app : App) (popup : Option Popup) (call : Call) : Option Popup :=
  match call.event with
  | .newPopup key parent positioner | .repositionRequest key parent positioner =>
    if key = surface then (app.placedBy call.env surface parent positioner).or popup else popup
  | .commit key .removed _ =>
    if key = surface then popup.map fun popup => { popup with hidden := true } else popup
  | .destroyed key | .popupDestroyed key => if key = surface then none else popup
  | .toplevelDestroyed key =>
    -- a popup goes with its window
    popup.filter fun popup => app.surfaceToWindow.get? key ≠ some popup.windowId
  | _ => popup

/-- The popup of a surface after a session. -/
def popupAfter (surface : ObjectId) (app : App) (popup : Option Popup) : List Call → Option Popup
  | [] => popup
  | call :: calls =>
    match app.step call with
    | .ok app' => app'.popupAfter surface (popupStep surface app popup call) calls
    | .error _ => none

/-- Smithay's rule: a surface keeps its role, so that of a popup is never a toplevel nor a
subsurface. -/
structure PopupRole (surface : ObjectId) (call : Call) : Prop where
  ancestors : call.env.ancestors surface = []
  toplevel : ∀ title appId, call.event ≠ .newToplevel surface title appId

/-- The route of the popup is there unless it is hidden. -/
structure Routed (surface : ObjectId) (app : App) (popup : Option Popup) : Prop where
  root : app.surfaceToWindow.get? surface = none
  place : (app.popupRoutes.get? surface).map PopupRoute.place =
    (popup.filter fun popup => !popup.hidden).map Popup.place

variable {app app' : App} {env : Env} {surface : ObjectId} {popup : Option Popup}

theorem Routed.kept (hs : Routed surface app popup) (h : Kept app app') : Routed surface app' popup :=
  ⟨by rw [h.surfaceToWindow]; exact hs.root, by rw [h.places]; exact hs.place⟩

theorem Routed.routePopup (hs : Routed surface app popup) (env : Env) (key : ObjectId)
    (parent : Option ObjectId) (positioner : PositionerState) :
    Routed surface (app.routePopup env key parent positioner).1
      (if key = surface then (app.placedBy env surface parent positioner).or popup else popup) := by
  refine ⟨by rw [surfaceToWindow_routePopup]; exact hs.root, ?_⟩
  by_cases hkey : key = surface
  · subst hkey
    rw [if_pos rfl]
    unfold placedBy
    unfold App.routePopup
    split
    · exact hs.place
    · split
      · exact hs.place
      · simp [Option.filter, PopupRoute.place, Popup.place]
  · rw [if_neg hkey]
    unfold App.routePopup
    split
    · exact hs.place
    · split
      · exact hs.place
      · simp only [Table.get?_insert, if_neg (Ne.symm hkey)]
        exact hs.place

theorem get?_popupRoutes_forgotten (app : App) (key surface : ObjectId) :
    (app.forgotten key).popupRoutes.get? surface =
      if surface = key then none else app.popupRoutes.get? surface := by
  unfold forgotten removePopupRouteForSurface
  split
  · rename_i hnone
    simp only [clearChildSurfaceTracking]
    split
    · rename_i hkey
      rw [hkey, hnone]
    · rfl
  · simp [clearChildSurfaceTracking]

theorem Routed.forgotten_self (hs : Routed surface app popup) {popup' : Option Popup}
    (hpopup : ∀ p ∈ popup', p.hidden = true) : Routed surface (app.forgotten surface) popup' := by
  refine ⟨by rw [surfaceToWindow_forgotten]; exact hs.root, ?_⟩
  rw [get?_popupRoutes_forgotten, if_pos rfl]
  cases popup' with
  | none => rfl
  | some p => simp [Option.filter, hpopup p rfl]

theorem Routed.forgotten_of_ne (hs : Routed surface app popup) {key : ObjectId}
    (hkey : key ≠ surface) : Routed surface (app.forgotten key) popup := by
  refine ⟨by rw [surfaceToWindow_forgotten]; exact hs.root, ?_⟩
  rw [get?_popupRoutes_forgotten, if_neg (Ne.symm hkey)]
  exact hs.place

/-- A surface with a route is shown where the route says. -/
theorem surfaceWindowOffset_route {route : PopupRoute}
    (hroot : app.surfaceToWindow.get? surface = none)
    (hroute : app.popupRoutes.get? surface = some route) :
    app.surfaceWindowOffset env surface = some route.place := by
  have hzero (n : Int32) : saturatingAddI32 0 n = n := by
    have hlt := n.toInt_lt
    have hle := n.le_toInt
    have hclamp : max (-2 ^ 31) (min (0 + n.toInt) (2 ^ 31 - 1)) = n.toInt := by omega
    show Int32.ofInt (max (-2 ^ 31) (min (0 + n.toInt) (2 ^ 31 - 1))) = n
    rw [hclamp, Int32.ofInt_toInt]
  unfold surfaceWindowOffset offsetLoop
  simp [hroot, hroute, hzero, PopupRoute.place]

theorem surfaceWindowOffset_none (hroot : app.surfaceToWindow.get? surface = none)
    (hroute : app.popupRoutes.get? surface = none) (hancestors : env.ancestors surface = []) :
    app.surfaceWindowOffset env surface = none := by
  unfold surfaceWindowOffset offsetLoop
  simp [hroot, hroute, hancestors]

theorem Routed.closed (hs : Routed surface app popup) (key : ObjectId) (env : Env) :
    Routed surface (app.toplevelDestroyed env key)
      (popup.filter fun popup => app.surfaceToWindow.get? key ≠ some popup.windowId) := by
  cases hroot : app.surfaceToWindow.get? key with
  | none =>
    have hall : (popup.filter fun popup => decide (none ≠ some popup.windowId)) = popup := by
      cases popup <;> simp [Option.filter]
    rw [hall]
    simp only [toplevelDestroyed, hroot]
    exact hs
  | some id =>
    obtain ⟨hsurfaces, -, hplaces⟩ := toplevelDestroyed_spec env hroot
    refine ⟨by rw [hsurfaces, Table.get?_remove, hs.root, ite_self], ?_⟩
    -- both sides keep what is in another window
    have hroutes : ((app.popupRoutes.get? surface).filter (·.windowId ≠ id)).map PopupRoute.place =
        ((app.popupRoutes.get? surface).map PopupRoute.place).filter (·.1 ≠ id) := by
      rw [Option.filter_map]
      rfl
    have hpopup : ((popup.filter fun popup => decide (some id ≠ some popup.windowId)).filter
        fun popup => !popup.hidden).map Popup.place =
        ((popup.filter fun popup => !popup.hidden).map Popup.place).filter (·.1 ≠ id) := by
      cases popup with
      | none => rfl
      | some p =>
        by_cases hw : p.windowId = id
        · cases hh : p.hidden <;> simp [Option.filter, hh, hw, Popup.place]
        · cases hh : p.hidden <;> simp [Option.filter, hh, hw, Ne.symm hw, Popup.place]
    rw [hplaces, hroutes, hs.place, hpopup]

/-- A popup that commits no buffer is hidden, whether its route was there or not. -/
theorem Routed.removed (hs : Routed surface app popup) (damageCount : Nat)
    (hancestors : env.ancestors surface = [])
    (h : app.commit env surface .removed damageCount = .ok app') :
    Routed surface app' (popup.map fun popup => { popup with hidden := true }) := by
  have hhidden : ∀ p ∈ popup.map fun popup => { popup with hidden := true }, p.hidden = true := by
    simp
  cases hroute : app.popupRoutes.get? surface with
  | none =>
    have hnone := surfaceWindowOffset_none hs.root hroute hancestors
    simp only [commit, hnone] at h
    cases h
    refine ⟨hs.root, ?_⟩
    cases popup with
    | none => rw [hroute]; rfl
    | some p => simp [hroute, Option.filter]
  | some route =>
    have haction : app.tableAction { env, event := .commit surface .removed damageCount } =
        some (.forget surface) := by
      simp [tableAction, Table.contains, hs.root, surfaceWindowOffset_route hs.root hroute]
    exact (hs.forgotten_self hhidden).kept (forgot_of_action haction h)

theorem Routed.created (hs : Routed surface app popup) {key : ObjectId} (hkey : key ≠ surface)
    (title appId : String) : Routed surface (app.newToplevel key title appId) popup := by
  obtain ⟨hsurfaces, -, hplaces⟩ := newToplevel_spec app key title appId
  refine ⟨?_, by rw [hplaces]; exact hs.place⟩
  rw [hsurfaces, Table.get?_insert, if_neg (Ne.symm hkey)]
  exact hs.root

theorem Routed.forget (hs : Routed surface app popup) {key : ObjectId} {call : Call}
    (haction : app.tableAction call = some (.forget key)) (h : app.step call = .ok app') :
    Routed surface app' (if key = surface then none else popup) := by
  have hkept := forgot_of_action haction h
  split
  · rename_i hkey
    subst hkey
    exact (hs.forgotten_self (by simp)).kept hkept
  · rename_i hkey
    exact (hs.forgotten_of_ne hkey).kept hkept

theorem tableAction_removed {key : ObjectId} {damageCount : Nat} {action : TableAction}
    (h : app.tableAction { env, event := .commit key .removed damageCount } = some action) :
    action = .forget key := by
  simp only [tableAction] at h
  split at h
  · cases h
  · obtain ⟨_, -, rfl⟩ := Option.map_eq_some_iff.1 h
    rfl

/-- **The compositor has the route of a popup exactly while it is not hidden**, step by step. -/
theorem Routed.step (hs : Routed surface app popup) {call : Call} (hrole : PopupRole surface call)
    (h : app.step call = .ok app') : Routed surface app' (popupStep surface app popup call) := by
  obtain ⟨env, event⟩ := call
  cases event with
  | newToplevel key title appId =>
    cases h
    exact hs.created (fun hkey => hrole.toplevel title appId (by rw [hkey])) title appId
  | newPopup key parent positioner => cases h; exact hs.routePopup env key parent positioner
  | repositionRequest key parent positioner => cases h; exact hs.routePopup env key parent positioner
  | commit key buffer damageCount =>
    cases buffer with
    | removed =>
      by_cases hkey : key = surface
      · subst hkey
        simp only [popupStep, if_true]
        exact hs.removed damageCount hrole.ancestors h
      · simp only [popupStep, if_neg hkey]
        cases haction : app.tableAction { env, event := .commit key .removed damageCount } with
        | none => exact hs.kept (kept_of_action haction h)
        | some action =>
          obtain rfl := tableAction_removed haction
          exact (hs.forgotten_of_ne hkey).kept (forgot_of_action haction h)
    | new buffer => exact hs.kept (kept_of_action rfl h)
    | none => exact hs.kept (kept_of_action rfl h)
  | destroyed key => exact hs.forget rfl h
  | popupDestroyed key => exact hs.forget rfl h
  | toplevelDestroyed key => cases h; exact hs.closed key env
  | _ => exact hs.kept (kept_of_action rfl h)

theorem Routed.run {calls : List Call} (hs : Routed surface app popup)
    (hrole : ∀ call ∈ calls, PopupRole surface call) (h : app.run calls = .ok app') :
    Routed surface app' (app.popupAfter surface popup calls) := by
  induction calls generalizing app popup with
  | nil =>
    cases h
    exact hs
  | cons call calls ih =>
    obtain ⟨app₁, happ₁, h⟩ := bind_eq_ok.1 h
    simp only [popupAfter, happ₁]
    exact ih (hs.step (hrole call List.mem_cons_self) happ₁)
      (fun call' hcall' => hrole call' (List.mem_cons_of_mem _ hcall')) h

theorem routed_start (req : ViewRequest) (surface : ObjectId) : Routed surface (start req) none :=
  ⟨rfl, rfl⟩

/-! ## Commits of a popup -/

/-- The rectangle of a child in its window, which is empty when it is all outside. -/
def clippedRect (b : ShmBuffer) (x y : Int32) (size : Size) : ChildRect :=
  match surfaceCopyRectWithBounds (nonnegative b.width) (nonnegative b.height) x y
    (some { width := size.1, height := size.2 }) with
  | some rect => (x, y, rect.width, rect.height)
  | none => (x, y, 0, 0)

/-- It has the size of the child's tile. -/
theorem clippedRect_of_copy {buffer : Option ShmBuffer} {id : UInt64} {x y : Int32} {size : Size}
    {tile : FrameTile} (h : copyShmBufferClipped buffer id x y { width := size.1, height := size.2 } =
      .ok (some tile)) : ∃ b, buffer = some b ∧ clippedRect b x y size = (x, y, tile.w, tile.h) := by
  obtain ⟨b, rect, bytes, hb, hrect, -, -, rfl⟩ := copyShmBuffer_tile h
  refine ⟨b, hb, ?_⟩
  simp only [clippedRect, hrect]
  rfl

/-- A valid buffer of a child that is shown in the window is queued, after the window itself if that
has to be painted again and can be. -/
theorem commit_child_shown_iff {id : UInt64} {x y : Int32} {window : RemoteWindow} {b : ShmBuffer}
    {buffer : BufferId} {damageCount : Nat} (hroot : app.surfaceToWindow.get? surface = none)
    (hoffset : app.surfaceWindowOffset env surface = some (id, x, y))
    (hwindow : app.windows.get? id = some window) (hshm : env.shm buffer = some b) (hb : b.Valid)
    (hin : Intersects (nonnegative b.width) (nonnegative b.height) x y
      { width := window.size.1, height := window.size.2 }) :
    (∃ app', app.commit env surface (.new buffer) damageCount = .ok app' ∧
        app.queuedTiles app' id ≠ []) ↔
      (app.geomChanged surface (clippedRect b x y window.size) = true →
        ¬ (app.cacheBuffer surface (.new buffer)).RepaintPanics env id) := by
  obtain ⟨rect, hrect⟩ := surfaceCopyRect_of_intersects hin
  obtain ⟨bytes, -, hcopy⟩ := copyShmBuffer_of_valid hb id hrect
  have hcopied : (app.copyCommittedShmBuffer env surface (.new buffer) damageCount id x y).2 =
      .ok (some (rect.tile id bytes)) := by
    rw [copyCommittedShmBuffer_child hroot hwindow, hshm]
    exact hcopy
  obtain ⟨_, hb, hclip⟩ := clippedRect_of_copy hcopy
  cases hb
  rw [hclip]
  refine Iff.trans ⟨?_, ?_⟩ (commitChild_ok_iff :
    (∃ app', ((app.trackChild surface id).cacheBuffer surface (.new buffer)).commitChild env surface
      id x y (rect.tile id bytes) = .ok app') ↔ _)
  · rintro ⟨app', h, -⟩
    rw [commit_child_tile hroot hoffset hcopied] at h
    exact ⟨app', h⟩
  · rintro ⟨app', h⟩
    refine ⟨app', (commit_child_tile hroot hoffset hcopied).trans h, ?_⟩
    have hqueued := queuedTiles_commitChild (show (rect.tile id bytes).id = id from rfl) h
    have hsame : ((app.trackChild surface id).cacheBuffer surface (.new buffer)).queuedTiles app' id =
        app.queuedTiles app' id := rfl
    rw [← hsame, hqueued]
    exact List.append_ne_nil_of_right_ne_nil _ (List.cons_ne_nil _ _)

/-- **A valid buffer of a popup is shown exactly when the popup has not been hidden since it was last
placed**, and painting the window again, where that comes first, does not panic. -/
theorem popup_shown_iff (req : ViewRequest) (surface : ObjectId) (calls : List Call) (app : App)
    (popup : Popup) (hrole : ∀ call ∈ calls, PopupRole surface call)
    (hrun : (start req).run calls = .ok app)
    (hpopup : (start req).popupAfter surface none calls = some popup) (window : RemoteWindow)
    (hwindow : app.windows.get? popup.windowId = some window) (env : Env)
    (hancestors : env.ancestors surface = []) (buffer : BufferId) (damageCount : Nat) (b : ShmBuffer)
    (hshm : env.shm buffer = some b) (hb : b.Valid)
    (hin : Intersects (nonnegative b.width) (nonnegative b.height) popup.x popup.y
      { width := window.size.1, height := window.size.2 }) :
    (∃ app', app.commit env surface (.new buffer) damageCount = .ok app' ∧
        app.queuedTiles app' popup.windowId ≠ []) ↔
      popup.hidden = false ∧
        (app.geomChanged surface (clippedRect b popup.x popup.y window.size) = true →
          ¬ (app.cacheBuffer surface (.new buffer)).RepaintPanics env popup.windowId) := by
  have hrouted := (routed_start req surface).run hrole hrun
  rw [hpopup] at hrouted
  have hplace := hrouted.place
  cases hhidden : popup.hidden with
  | true =>
    simp only [Option.filter, hhidden, Bool.not_true, Bool.false_eq_true, if_false, Option.map_none,
      Option.map_eq_none_iff] at hplace
    refine iff_of_false ?_ fun h => (nomatch h.1)
    rintro ⟨app', h, hqueued⟩
    simp only [commit, surfaceWindowOffset_none hrouted.root hplace hancestors] at h
    cases h
    exact hqueued (queuedTiles_self app _)
  | false =>
    simp only [Option.filter, hhidden, Bool.not_false, if_true, Option.map_some] at hplace
    obtain ⟨route, hroute, hsame⟩ := Option.map_eq_some_iff.1 hplace
    have hoffset : app.surfaceWindowOffset env surface = some route.place :=
      surfaceWindowOffset_route hrouted.root hroute
    rw [hsame] at hoffset
    rw [commit_child_shown_iff hrouted.root hoffset hwindow hshm hb hin]
    simp

/-- One red pixel. -/
def dot : ShmBuffer :=
  { offset := 0, width := 1, height := 1, stride := 4, format := .xrgb8888, memory := [0, 0, 255, 0] }

theorem dot_valid : dot.Valid := by
  refine ⟨by decide, by decide, by decide, by decide, by decide, fun code => ?_⟩
  simp [dot]

/-- Every buffer is the dot. -/
def dotEnv : Env := { bareEnv with shm := fun _ => some dot }

/-- A window with a popup on its first pixel. -/
def openPopup : List Call :=
  [{ env := dotEnv, event := .newToplevel 0 "" "" },
    { env := dotEnv, event := .newPopup 1 (some 0)
        { getGeometry := ⟨0, 0, 1, 1⟩, getUnconstrainedGeometry := fun _ => ⟨0, 0, 1, 1⟩ } }]

theorem popupRole_openPopup (call : Call) (h : call ∈ openPopup) : PopupRole 1 call := by
  simp only [openPopup, List.mem_cons, List.not_mem_nil, or_false] at h
  obtain rfl | rfl := h
  · exact ⟨rfl, by simp⟩
  · exact ⟨rfl, fun _ _ => Event.noConfusion⟩

theorem intersects_dot : Intersects (nonnegative dot.width) (nonnegative dot.height) 0 0
    { width := 1, height := 1 } := by decide

theorem popup_shown_first : ∃ app, (start ⟨"vbox", 640, 480⟩).run openPopup = .ok app ∧
    ∃ app', app.commit dotEnv 1 (.new 7) 0 = .ok app' ∧ app.queuedTiles app' 1 ≠ [] := by
  refine ⟨_, rfl, ?_⟩
  exact (popup_shown_iff ⟨"vbox", 640, 480⟩ 1 openPopup _ ⟨1, 0, 0, false⟩ popupRole_openPopup rfl rfl
    _ rfl dotEnv rfl 7 0 dot rfl dot_valid intersects_dot).2 ⟨rfl, fun h => (nomatch h)⟩

/-- The popup is shown, hidden, and gets a buffer again: nothing is queued, although popup and window
are there and the buffer is inside. -/
theorem hidden_popup_dropped :
    ∃ app popup window app', (start ⟨"vbox", 640, 480⟩).run
        (openPopup ++ [{ env := dotEnv, event := .commit 1 (.new 7) 0 },
          { env := dotEnv, event := .commit 1 .removed 0 }]) = .ok app ∧
      (start ⟨"vbox", 640, 480⟩).popupAfter 1 none
        (openPopup ++ [{ env := dotEnv, event := .commit 1 (.new 7) 0 },
          { env := dotEnv, event := .commit 1 .removed 0 }]) = some popup ∧
      app.windows.get? popup.windowId = some window ∧ dotEnv.shm 7 = some dot ∧ dot.Valid ∧
      Intersects (nonnegative dot.width) (nonnegative dot.height) popup.x popup.y
        { width := window.size.1, height := window.size.2 } ∧
      app.commit dotEnv 1 (.new 7) 0 = .ok app' ∧ app.queuedTiles app' popup.windowId = [] :=
  ⟨_, ⟨1, 0, 0, true⟩, _, _, rfl, rfl, rfl, rfl, dot_valid, intersects_dot, rfl, rfl⟩

end App
end VBox.Compositor
