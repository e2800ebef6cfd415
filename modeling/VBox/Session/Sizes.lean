import VBox.Lib.Traces
import VBox.Session.Scene
import VBox.Session.Repaint

/-!
# Session.Sizes

The sizes of the windows, and what the compositor tells the viewer about them. A window starts at
`1 × 1` and takes the size of its root's buffer; the viewer learns of it by a `Configured`, and by
tiles, which must not reach beyond it.

* `Tells`: what a message says about the sizes, with neither side of the wire in it.
* `Sized`: the buffer that is kept for a window's root has the window's size.
* `step_tells`: the messages of a callback lead from the sizes before it to the sizes after it.
-/

namespace VBox

/-- The size that its client gave a buffer. -/
def ShmBuffer.size (b : ShmBuffer) : UInt32 × UInt32 := (nonnegative b.width, nonnegative b.height)

namespace Compositor

open Raster

/-- The sizes of the windows that there are. -/
abbrev Sizes := UInt64 → Option Size

/-- A tile that lies in a window of a size. -/
structure TileInside (tile : FrameTile) (size : Size) : Prop where
  right : tile.x.toNat + tile.w.toNat ≤ size.1.toNat
  bottom : tile.y.toNat + tile.h.toNat ≤ size.2.toNat

/-- The windows' sizes before and after a message. A tile says nothing new: it lies in its window. -/
inductive Tells (Allowed : Size → Prop) : Sizes → Message → Sizes → Prop
  | tile {sizes : Sizes} {tile : FrameTile} {size : Size} : sizes tile.id = some size →
      TileInside tile size → Tells Allowed sizes (.frameTile tile) sizes
  | created {sizes : Sizes} {id : UInt64} {title appId : String} :
      Tells Allowed sizes (.windowEvent (.created id { x := 0, y := 0, w := 1, h := 1 } title appId))
        (Function.update sizes id (some (1, 1)))
  | configured {sizes : Sizes} {id : UInt64} {old size : Size} : sizes id = some old →
      1 ≤ size.1.toNat → 1 ≤ size.2.toNat → Allowed size →
      Tells Allowed sizes (.windowEvent (.configured id { x := 0, y := 0, w := size.1, h := size.2 }))
        (Function.update sizes id (some size))
  | destroyed {sizes : Sizes} {id : UInt64} :
      Tells Allowed sizes (.windowEvent (.destroyed id)) (Function.update sizes id none)
  | plain {sizes : Sizes} {msg : Message} : plain msg = true → Tells Allowed sizes msg sizes

namespace App

def sizes (app : App) : Sizes := fun id => (app.face id).map Prod.snd

variable {app app' : App} {env : Env} {surface : ObjectId} {id : UInt64} {tile : FrameTile}
  {Allowed : Size → Prop}

theorem sizes_eq_some {window : RemoteWindow} (h : app.windows.get? id = some window) :
    app.sizes id = some window.size := by simp [sizes, face, h, RemoteWindow.face]

theorem face_eq_some {window : RemoteWindow} (h : app.windows.get? id = some window) :
    app.face id = some (window.surface, window.size) := by simp [face, h, RemoteWindow.face]

/-! ## Tiles -/

/-- A child's tile lies in its window. -/
theorem inside_of_clipped {buffer : Option ShmBuffer} {x y : Int32} {size : Size}
    (h : copyShmBufferClipped buffer id x y { width := size.1, height := size.2 } =
      .ok (some tile)) : tile.id = id ∧ TileInside tile size := by
  refine ⟨tile_id_of_copy h, ?_⟩
  obtain ⟨b, rect, bytes, -, hrect, -, -, rfl⟩ := copyShmBuffer_tile h
  obtain ⟨hright, hbottom⟩ := (surfaceCopyRect_within hrect).bounds _ rfl
  exact ⟨hright, hbottom⟩

/-- The tile of a whole buffer. -/
structure Whole (tile : FrameTile) (id : UInt64) (b : ShmBuffer) : Prop where
  window : tile.id = id
  left : tile.x.toNat = 0
  top : tile.y.toNat = 0
  size : (tile.w, tile.h) = b.size
  width_pos : 1 ≤ tile.w.toNat
  height_pos : 1 ≤ tile.h.toNat

theorem surfaceCopyRect_whole {width height : UInt32} {rect : CopyRect}
    (h : surfaceCopyRectWithBounds width height 0 0 none = some rect) :
    rect.dstX.toNat = 0 ∧ rect.dstY.toNat = 0 ∧ rect.width = width ∧ rect.height = height ∧
      1 ≤ width.toNat ∧ 1 ≤ height.toNat := by
  have hzero : ¬ (0 : Int32) < 0 := by decide
  simp only [surfaceCopyRectWithBounds, hzero, if_false] at h
  split at h
  · cases h
  rename_i hsize
  simp only [not_or, UInt32.not_le, UInt32.lt_iff_toNat_lt] at hsize
  cases h
  refine ⟨rfl, rfl, by simp, by simp, hsize.1, hsize.2⟩

theorem whole_of_copy {buffer : Option ShmBuffer}
    (h : copyShmBuffer buffer id 0 0 = .ok (some tile)) : ∃ b, buffer = some b ∧ Whole tile id b := by
  have hid := tile_id_of_copy h
  obtain ⟨b, rect, bytes, hb, hrect, -, -, rfl⟩ := copyShmBuffer_tile h
  obtain ⟨hx, hy, hw, hh, hwpos, hhpos⟩ := surfaceCopyRect_whole hrect
  refine ⟨b, hb, hid, hx, hy, ?_, ?_, ?_⟩
  · show (rect.width, rect.height) = b.size
    rw [hw, hh]
    rfl
  · show 1 ≤ rect.width.toNat
    rw [hw]
    exact hwpos
  · show 1 ≤ rect.height.toNat
    rw [hh]
    exact hhpos

theorem Whole.inside {b : ShmBuffer} {size : Size} (h : Whole tile id b) (hsize : b.size = size) :
    TileInside tile size := by
  have hleft := h.left
  have htop := h.top
  obtain ⟨hw, hh⟩ := Prod.mk.inj (h.size.trans hsize)
  exact ⟨by rw [← hw]; omega, by rw [← hh]; omega⟩

theorem Whole.nonzero {b : ShmBuffer} (h : Whole tile id b) : nonzeroSize (tile.w, tile.h) = b.size := by
  rw [← h.size, nonzeroSize]
  refine Prod.ext ?_ ?_
  · rw [← UInt32.toNat_inj]
    have hw := h.width_pos
    have hone : (1 : UInt32).toNat = 1 := rfl
    simp only [toNat_max, hone]
    omega
  · rw [← UInt32.toNat_inj]
    have hh := h.height_pos
    have hone : (1 : UInt32).toNat = 1 := rfl
    simp only [toNat_max, hone]
    omega

/-! ## Buffers of the size of their window -/

/-- What the client said about a buffer stays as it is. -/
def Steady (size : BufferId → Size) (env : Env) : Prop :=
  ∀ buffer b, env.shm buffer = some b → b.size = size buffer

/-- The buffer of a window's root has the window's size, and a surface with the role of a root has a
buffer only while it has a window. -/
structure Sized (roots : Set ObjectId) (size : BufferId → Size) (app : App) : Prop where
  cached : ∀ id surface s buffer, app.face id = some (surface, s) →
    app.currentBuffers.get? surface = some buffer → size buffer = s
  shown : ∀ surface ∈ roots, app.currentBuffers.contains surface = true →
    app.surfaceToWindow.contains surface = true

/-- Messages that lead from the sizes of one state to those of the other have been queued. -/
def Told (Allowed : Size → Prop) (app app' : App) : Prop :=
  ∃ msgs, app'.tx = app.tx ++ msgs ∧ Trace (Tells Allowed) app.sizes msgs app'.sizes

variable {roots : Set ObjectId} {size : BufferId → Size} {app'' : App}

theorem Told.trans (h : Told Allowed app app') (h' : Told Allowed app' app'') :
    Told Allowed app app'' := by
  obtain ⟨msgs, htx, htold⟩ := h
  obtain ⟨msgs', htx', htold'⟩ := h'
  exact ⟨msgs ++ msgs', by rw [htx', htx, List.append_assoc], htold.append htold'⟩

theorem told_of_eq (htx : app'.tx = app.tx) (hsizes : app'.sizes = app.sizes) :
    Told Allowed app app' :=
  ⟨[], by rw [htx, List.append_nil], by rw [hsizes]; exact .nil⟩

/-- Tiles that lie in their windows. -/
theorem told_enqueueTiles {tiles : List FrameTile}
    (h : ∀ tile ∈ tiles, ∃ s, app.sizes tile.id = some s ∧ TileInside tile s) :
    Told Allowed app (app.enqueueTiles tiles) := by
  refine ⟨tiles.map .frameTile, rfl, Trace.of_forall fun msg hmsg => ?_⟩
  obtain ⟨tile, htile, rfl⟩ := List.mem_map.1 hmsg
  obtain ⟨s, hs, hinside⟩ := h tile htile
  exact .tile hs hinside

theorem SameScene.told (h : SameScene app app') : Told Allowed app app' := by
  obtain ⟨msgs, htx, hplain⟩ := h.tx
  have hsizes : app'.sizes = app.sizes := by
    funext id
    rw [sizes, h.faces, sizes]
  refine ⟨msgs, htx, ?_⟩
  rw [hsizes]
  exact Trace.of_forall fun msg hmsg => .plain (hplain msg hmsg)

theorem Sized.of_eq (hs : Sized roots size app) (hfaces : ∀ id, app'.face id = app.face id)
    (hbuffers : ∀ surface buffer, app'.currentBuffers.get? surface = some buffer →
      app.currentBuffers.get? surface = some buffer)
    (hroots : app'.surfaceToWindow = app.surfaceToWindow) : Sized roots size app' := by
  refine ⟨fun id surface s buffer hface hbuffer =>
    hs.cached id surface s buffer (hfaces id ▸ hface) (hbuffers surface buffer hbuffer),
    fun surface hsurface hcached => ?_⟩
  obtain ⟨buffer, hbuffer⟩ := (Table.contains_iff _ _).1 hcached
  rw [hroots]
  exact hs.shown surface hsurface (Table.contains_of_get? (hbuffers surface buffer hbuffer))

/-- A window is painted again with the buffer of its own size. -/
theorem Sized.cachedTile_inside (hs : Sized roots size app) (hsteady : Steady size env)
    (h : app.cachedTile env id = some tile) :
    ∃ s, app.sizes tile.id = some s ∧ TileInside tile s := by
  obtain ⟨window, buffer, hwindow, hbuffer, hcopy⟩ := cachedTile_eq_some.1 h
  obtain ⟨b, hb, hwhole⟩ := whole_of_copy hcopy
  have hsize := hs.cached id window.surface window.size buffer (face_eq_some hwindow) hbuffer
  refine ⟨window.size, by rw [hwhole.window]; exact sizes_eq_some hwindow, hwhole.inside ?_⟩
  rw [hsteady buffer b hb, hsize]

theorem childTile_inside {key : ObjectId} (h : app.childTile env id key = some tile) :
    ∃ s, app.sizes tile.id = some s ∧ TileInside tile s := by
  obtain ⟨_, x, y, window, _, -, -, hwindow, -, hcopy⟩ := childTile_eq_some.1 h
  obtain ⟨hid, hinside⟩ := inside_of_clipped hcopy
  exact ⟨window.size, by rw [hid]; exact sizes_eq_some hwindow, hinside⟩

theorem repaintMovedChildSurfaces_frame {first : Bool}
    (h : app.repaintMovedChildSurfaces env id first = .ok app') :
    app'.windows = app.windows ∧ app'.currentBuffers = app.currentBuffers ∧
      app'.surfaceToWindow = app.surfaceToWindow := by
  obtain ⟨-, rfl⟩ | ⟨window, m, -, -, rfl⟩ := repaintMovedChildSurfaces_eq h
  · exact ⟨rfl, rfl, rfl⟩
  · exact ⟨rfl, rfl, rfl⟩

theorem told_repaintMovedChildSurfaces {first : Bool}
    (hfirst : first = true → ∀ tile, app.cachedTile env id = some tile →
      ∃ s, app.sizes tile.id = some s ∧ TileInside tile s)
    (h : app.repaintMovedChildSurfaces env id first = .ok app') : Told Allowed app app' := by
  obtain ⟨-, rfl⟩ | ⟨window, m, hwindow, hm, rfl⟩ := repaintMovedChildSurfaces_eq h
  · exact told_of_eq rfl rfl
  · refine (told_of_eq rfl rfl).trans (told_enqueueTiles fun t ht => ?_)
    obtain ht | ht := List.mem_append.1 ht
    · split at ht
      · rename_i hneeded
        exact hfirst hneeded.2 t (Option.mem_toList.1 ht)
      · cases ht
    · obtain ⟨key, hkey, -⟩ := moves_of_changedTiles hwindow hm t ht
      have hinside := childTile_inside hkey
      exact hinside

/-! ## Commits -/

/-- The compositor after the tile of a root, but for the children. -/
def paintedRoot (app : App) (surface : ObjectId) (id : UInt64) (tile : FrameTile) : App :=
  let (app, configuredGeom) :=
    (app.updatePopupSize surface tile.w tile.h).resizeRootWindow id tile.w tile.h
  let app :=
    match configuredGeom with
    | some geom => app.enqueueMessage (.windowEvent (.configured id geom))
    | none => app
  app.enqueueMessage (.frameTile tile)

theorem commitRoot_eq (app : App) (env : Env) (surface : ObjectId) (id : UInt64) (tile : FrameTile) :
    app.commitRoot env surface id tile =
      (app.paintedRoot surface id tile).repaintMovedChildSurfaces env id false := rfl

/-- The window has the size of the tile. -/
theorem face_setWindow (app : App) (id : UInt64) (window : RemoteWindow) (i : UInt64) :
    (app.setWindow id window).face i = if i = id then some window.face else app.face i := by
  simp only [face, setWindow, Table.get?_insert]
  split
  · rfl
  · rfl

theorem sizes_of_faces {newSize : Size}
    (h : ∀ i, app'.face i = if i = id then some (surface, newSize) else app.face i) :
    app'.sizes = Function.update app.sizes id (some newSize) := by
  funext i
  rw [sizes, h i, Function.update_apply]
  split
  · rfl
  · rfl

theorem paintedRoot_spec {window : RemoteWindow} {b : ShmBuffer}
    (hwindow : app.windows.get? id = some window) (hwhole : Whole tile id b)
    (hallowed : Allowed b.size) (surface : ObjectId) :
    Told Allowed app (app.paintedRoot surface id tile) ∧
      (∀ i, (app.paintedRoot surface id tile).face i =
        if i = id then some (window.surface, b.size) else app.face i) ∧
      (app.paintedRoot surface id tile).currentBuffers = app.currentBuffers ∧
      (app.paintedRoot surface id tile).surfaceToWindow = app.surfaceToWindow := by
  have hsized := hwhole.nonzero
  have hwindow' : (app.updatePopupSize surface tile.w tile.h).windows.get? id = some window := hwindow
  have hsame : window.size = b.size → ∀ i, app.face i =
      if i = id then some (window.surface, b.size) else app.face i := by
    intro hsize i
    split
    · rename_i hi
      rw [hi, face_eq_some hwindow, hsize]
    · rfl
  simp only [paintedRoot, resizeRootWindow, hwindow', hsized]
  by_cases hsize : window.size = b.size
  · simp only [hsize, if_true]
    refine ⟨⟨[.frameTile tile], rfl, .single (.tile ?_ (hwhole.inside rfl))⟩, hsame hsize, rfl, rfl⟩
    rw [hwhole.window, ← hsize]
    exact sizes_eq_some hwindow
  · simp only [hsize, if_false]
    have hfaces := face_setWindow (app.updatePopupSize surface tile.w tile.h) id
      { window with size := b.size }
    have htold : Trace (Tells Allowed) app.sizes
        [.windowEvent (.configured id { x := 0, y := 0, w := b.size.1, h := b.size.2 }),
          .frameTile tile] (Function.update app.sizes id (some b.size)) := by
      refine .cons (.configured (sizes_eq_some hwindow) ?_ ?_ hallowed)
        (.single (.tile ?_ (hwhole.inside rfl)))
      · rw [← hwhole.size]
        exact hwhole.width_pos
      · rw [← hwhole.size]
        exact hwhole.height_pos
      · rw [hwhole.window, Function.update_self]
    have hsizes := sizes_of_faces hfaces
    refine ⟨⟨_, ?_, hsizes.symm ▸ htold⟩, hfaces, rfl, rfl⟩
    simp [enqueueMessage, setWindow, updatePopupSize, RemoteWindow.geom]

theorem Consistent.face_root (hc : Consistent app) {s : Size}
    (h : app.face id = some (surface, s)) : app.surfaceToWindow.get? surface = some id := by
  obtain ⟨window, hwindow, hface⟩ := Option.map_eq_some_iff.1 h
  refine (hc.root surface id).2 ?_
  rw [hwindow, Option.map_some, ← (Prod.mk.inj hface).1]

/-- The root of a window has a buffer of another size, and the window has it too. -/
theorem Sized.resized (hs : Sized roots size app) (hc : Consistent app) (s : Size)
    (hroot : app.surfaceToWindow.get? surface = some id)
    (hfaces : ∀ i, app'.face i = if i = id then some (surface, s) else app.face i)
    (hbuffers : ∀ key, key ≠ surface → app'.currentBuffers.get? key = app.currentBuffers.get? key)
    (hown : ∀ buffer, app'.currentBuffers.get? surface = some buffer → size buffer = s)
    (hroots : app'.surfaceToWindow = app.surfaceToWindow) : Sized roots size app' := by
  refine ⟨fun i key s' buffer hface hbuffer => ?_, fun key hkey hcached => ?_⟩
  · rw [hfaces i] at hface
    split at hface
    · cases hface
      exact hown buffer hbuffer
    · rename_i hi
      have hne : key ≠ surface := by
        rintro rfl
        have hother := hc.face_root hface
        rw [hroot] at hother
        exact hi (Option.some.inj hother).symm
      rw [hbuffers key hne] at hbuffer
      exact hs.cached i key s' buffer hface hbuffer
  · rw [hroots]
    by_cases hne : key = surface
    · rw [hne]
      exact Table.contains_of_get? hroot
    · rw [Table.contains, hbuffers key hne] at hcached
      exact hs.shown key hkey hcached

/-- A child has another buffer. -/
theorem Sized.cacheChild (hs : Sized roots size app) (hc : Consistent app)
    (hroot : app.surfaceToWindow.get? surface = none) (hsurface : surface ∉ roots)
    (hfaces : ∀ i, app'.face i = app.face i)
    (hbuffers : ∀ key, key ≠ surface → app'.currentBuffers.get? key = app.currentBuffers.get? key)
    (hroots : app'.surfaceToWindow = app.surfaceToWindow) : Sized roots size app' := by
  refine ⟨fun i key s' buffer hface hbuffer => ?_, fun key hkey hcached => ?_⟩
  · rw [hfaces i] at hface
    have hne : key ≠ surface := by
      rintro rfl
      have hother := hc.face_root hface
      rw [hroot] at hother
      cases hother
    rw [hbuffers key hne] at hbuffer
    exact hs.cached i key s' buffer hface hbuffer
  · have hne : key ≠ surface := fun h => hsurface (h ▸ hkey)
    rw [Table.contains, hbuffers key hne] at hcached
    rw [hroots]
    exact hs.shown key hkey hcached

/-- A commit without a new buffer leaves the buffer of the surface, or takes it. -/
theorem Sized.cacheBuffer (hs : Sized roots size app) {buffer : CommitBuffer}
    (hbuffer : ∀ b, buffer ≠ .new b) (surface : ObjectId) :
    Sized roots size (app.cacheBuffer surface buffer) := by
  cases buffer with
  | new b => exact absurd rfl (hbuffer b)
  | removed =>
    refine hs.of_eq (fun _ => rfl) (fun key b hb => ?_) rfl
    exact Table.get?_of_remove hb
  | none => exact hs

theorem forgotten_frame (app : App) (surface : ObjectId) :
    (app.forgotten surface).tx = app.tx ∧ (app.forgotten surface).windows = app.windows ∧
      (app.forgotten surface).currentBuffers = app.currentBuffers.remove surface ∧
      (app.forgotten surface).childSurfaces = app.childSurfaces.remove surface := by
  unfold forgotten removePopupRouteForSurface
  split
  · exact ⟨rfl, rfl, rfl, rfl⟩
  · exact ⟨rfl, rfl, rfl, rfl⟩

theorem Sized.forgotten (hs : Sized roots size app) (surface : ObjectId) :
    Sized roots size (app.forgotten surface) := by
  obtain ⟨-, hwindows, hbuffers, -⟩ := forgotten_frame app surface
  refine hs.of_eq (fun i => ?_) (fun key b hb => ?_) (surfaceToWindow_forgotten app surface)
  · rw [face, hwindows, face]
  · rw [hbuffers] at hb
    exact Table.get?_of_remove hb

/-! ## What a callback tells the viewer -/

/-- The tables with a window of the size `1 × 1` more. -/
def addWindow (app : App) (surface : ObjectId) : App :=
  { app with
    nextWindowId := saturatingAdd app.nextWindowId 1
    surfaceToWindow := app.surfaceToWindow.insert surface app.nextWindowId
    windows := app.windows.insert app.nextWindowId
      { toplevel := { size := some (0, 0), maximized := false, fullscreen := false,
                      activated := false }
        surface, size := (1, 1), mode := .normal, lastMoveRequestAt := none } }

/-- A window comes and has the focus. -/
theorem newToplevel_eq (app : App) (surface : ObjectId) (title appId : String) :
    ∃ focused, SameScene (app.addWindow surface) focused ∧
      app.newToplevel surface title appId = focused.enqueueMessage (.windowEvent
        (.created app.nextWindowId { x := 0, y := 0, w := 1, h := 1 } title appId)) :=
  ⟨_, sameScene_focusWindow (app.addWindow surface) app.nextWindowId, rfl⟩

theorem face_addWindow (app : App) (surface : ObjectId) (i : UInt64) :
    (app.addWindow surface).face i =
      if i = app.nextWindowId then some (surface, (1, 1)) else app.face i := by
  simp only [face, addWindow, Table.get?_insert]
  split
  · rfl
  · rfl

/-- A window of the size `1 × 1` comes, and the viewer hears of it. -/
theorem newToplevel_scene (app : App) (surface : ObjectId) (title appId : String) :
    (∀ i, (app.newToplevel surface title appId).face i =
        if i = app.nextWindowId then some (surface, (1, 1)) else app.face i) ∧
      (app.newToplevel surface title appId).currentBuffers = app.currentBuffers ∧
      ∃ msgs, (app.newToplevel surface title appId).tx = app.tx ++ (msgs ++ [.windowEvent
        (.created app.nextWindowId { x := 0, y := 0, w := 1, h := 1 } title appId)]) ∧
        ∀ msg ∈ msgs, plain msg = true := by
  obtain ⟨focused, hscene, heq⟩ := newToplevel_eq app surface title appId
  obtain ⟨msgs, htx, hplain⟩ := hscene.tx
  rw [heq]
  refine ⟨fun i => (hscene.faces i).trans (face_addWindow app surface i), hscene.currentBuffers, msgs,
    ?_, hplain⟩
  rw [← List.append_assoc]
  exact congrArg (· ++ [_]) htx

theorem told_newToplevel (app : App) (surface : ObjectId) (title appId : String) :
    Told Allowed app (app.newToplevel surface title appId) := by
  obtain ⟨hfaces, -, msgs, htx, hplain⟩ := newToplevel_scene app surface title appId
  refine ⟨_, htx, ?_⟩
  rw [sizes_of_faces hfaces]
  exact (Trace.of_forall fun msg hmsg => .plain (hplain msg hmsg)).append (.single .created)

/-- A window goes, and another one may have the focus. -/
theorem toplevelDestroyed_eq (env : Env) (hroot : app.surfaceToWindow.get? surface = some id) :
    ∃ focused, SameScene (app.removeWindow surface id) focused ∧
      app.toplevelDestroyed env surface = focused.enqueueMessage (.windowEvent (.destroyed id)) := by
  have hfocus (a : App) : SameScene a (if a.activeWindowId = some id then a.focusNext env else a) := by
    split
    · unfold focusNext
      split
      · exact sameScene_focusWindow a _
      · exact sameScene_clearFocus a
    · exact .refl a
  simp only [toplevelDestroyed, hroot]
  exact ⟨_, hfocus (app.removeWindow surface id), rfl⟩

/-- A window goes, and the viewer hears of it. -/
theorem toplevelDestroyed_scene (env : Env) (hroot : app.surfaceToWindow.get? surface = some id) :
    (∀ i, (app.toplevelDestroyed env surface).face i = if i = id then none else app.face i) ∧
      (app.toplevelDestroyed env surface).currentBuffers = app.currentBuffers.remove surface ∧
      ∃ msgs, (app.toplevelDestroyed env surface).tx =
          app.tx ++ (msgs ++ [.windowEvent (.destroyed id)]) ∧
        ∀ msg ∈ msgs, plain msg = true := by
  obtain ⟨focused, hscene, heq⟩ := toplevelDestroyed_eq env hroot
  obtain ⟨msgs, htx, hplain⟩ := hscene.tx
  rw [heq]
  refine ⟨fun i => (hscene.faces i).trans ?_, hscene.currentBuffers, msgs, ?_, hplain⟩
  · simp only [face, removeWindow, Table.get?_remove]
    split
    · rfl
    · rfl
  · rw [← List.append_assoc]
    exact congrArg (· ++ [_]) htx

theorem told_toplevelDestroyed (env : Env) (hroot : app.surfaceToWindow.get? surface = some id) :
    Told Allowed app (app.toplevelDestroyed env surface) := by
  obtain ⟨hfaces, -, msgs, htx, hplain⟩ := toplevelDestroyed_scene env hroot
  have hsizes : (app.toplevelDestroyed env surface).sizes = Function.update app.sizes id none := by
    funext i
    rw [sizes, hfaces i, Function.update_apply]
    split
    · rfl
    · rfl
  refine ⟨_, htx, ?_⟩
  rw [hsizes]
  exact (Trace.of_forall fun msg hmsg => .plain (hplain msg hmsg)).append (.single .destroyed)

theorem Sized.created (hs : Sized roots size app) (title appId : String)
    (hfree : app.surfaceToWindow.get? surface = none) (hsurface : surface ∈ roots) :
    Sized roots size (app.newToplevel surface title appId) := by
  obtain ⟨hfaces, hbuffers, -⟩ := newToplevel_scene app surface title appId
  obtain ⟨hroots, -, -⟩ := newToplevel_spec app surface title appId
  refine ⟨fun i key s buffer hface hbuffer => ?_, fun key hkey hcached => ?_⟩
  · rw [hbuffers] at hbuffer
    rw [hfaces i] at hface
    split at hface
    · -- a surface that had no window has no buffer
      cases hface
      have hshown := hs.shown surface hsurface (Table.contains_of_get? hbuffer)
      simp [Table.contains, hfree] at hshown
    · exact hs.cached i key s buffer hface hbuffer
  · rw [hbuffers] at hcached
    rw [hroots, Table.contains_insert, hs.shown key hkey hcached, Bool.or_true]

theorem Sized.closed (hs : Sized roots size app) (env : Env)
    (hroot : app.surfaceToWindow.get? surface = some id) :
    Sized roots size (app.toplevelDestroyed env surface) := by
  obtain ⟨hfaces, hbuffers, -⟩ := toplevelDestroyed_scene env hroot
  obtain ⟨hroots, -, -⟩ := toplevelDestroyed_spec env hroot
  refine ⟨fun i key s buffer hface hbuffer => ?_, fun key hkey hcached => ?_⟩
  · rw [hbuffers] at hbuffer
    rw [hfaces i] at hface
    split at hface
    · cases hface
    · exact hs.cached i key s buffer hface (Table.get?_of_remove hbuffer)
  · rw [hbuffers, Table.contains_remove, Bool.and_eq_true] at hcached
    rw [hroots, Table.contains_remove, hs.shown key hkey hcached.2, Bool.and_true]
    exact hcached.1

/-! ### Commits -/

/-- What of a session a commit needs to know. -/
structure Knows (roots : Set ObjectId) (size : BufferId → Size) (Allowed : Size → Prop) (app : App)
    (env : Env) : Prop where
  consistent : Consistent app
  roles : RolesKept roots app
  subsurface : ∀ surface ∈ roots, env.ancestors surface = []
  steady : Steady size env
  allowed : ∀ buffer b, env.shm buffer = some b → Allowed b.size

/-- A surface that is shown as a child is none of those with the role of a root. -/
theorem Knows.child (hk : Knows roots size Allowed app env) {place : UInt64 × Int32 × Int32}
    (hroot : app.surfaceToWindow.get? surface = none)
    (hoffset : app.surfaceWindowOffset env surface = some place) : surface ∉ roots := by
  intro hsurface
  have hnone := surfaceWindowOffset_none hroot (hk.roles.popups surface hsurface)
    (hk.subsurface surface hsurface)
  rw [hoffset] at hnone
  cases hnone

/-- The copy that a commit of a root makes of a new buffer succeeds. -/
def CopySucceeds (app : App) (call : Call) : Prop :=
  match call.event with
  | .commit surface (.new buffer) _ =>
    ∀ id, app.surfaceToWindow.get? surface = some id →
      ∃ tile, copyShmBuffer (call.env.shm buffer) id 0 0 = .ok tile
  | _ => True

section Commit

variable {buffer : CommitBuffer} {damageCount : Nat}

theorem copyCommittedShmBuffer_root (hroot : app.surfaceToWindow.get? surface = some id)
    (buffer : BufferId) :
    (app.copyCommittedShmBuffer env surface (.new buffer) damageCount id 0 0).2 =
      copyShmBuffer (env.shm buffer) id 0 0 := by
  simp [copyCommittedShmBuffer, isRootSurfaceForWindow, hroot]

/-- A whole buffer that can be copied gives a tile. -/
theorem copyShmBuffer_ne_none (buffer : Option ShmBuffer) (id : UInt64) :
    copyShmBuffer buffer id 0 0 ≠ .ok none := by
  intro h
  simp only [copyShmBuffer, copyShmBufferWithBounds] at h
  split at h
  · cases h
  rename_i b
  split at h
  · cases h
  rename_i hvalid
  simp only [not_or, Int32.not_le, Int32.lt_iff_toInt_lt] at hvalid
  split at h
  · rename_i hrect
    have hneg : ¬ (0 : Int32) < 0 := by decide
    have hzero : (0 : Int32).toInt = 0 := rfl
    simp only [surfaceCopyRectWithBounds, hneg, if_false] at hrect
    split at hrect
    · rename_i hsize
      simp only [UInt32.le_iff_toNat_le, toNat_nonnegative, UInt32.toNat_zero] at hsize
      omega
    · cases hrect
  · split at h
    · cases h
    split at h
    · cases h
    split at h
    · cases h
    · cases h

theorem told_cacheBuffer (app : App) (surface : ObjectId) (buffer : CommitBuffer) :
    Told Allowed app (app.cacheBuffer surface buffer) :=
  told_of_eq (by simp) (by funext i; simp [sizes, face])

theorem told_commit_rootTile (hs : Sized roots size app) (hk : Knows roots size Allowed app env)
    (hroot : app.surfaceToWindow.get? surface = some id)
    (hcopied : (app.copyCommittedShmBuffer env surface buffer damageCount id 0 0).2 = .ok (some tile))
    (h : (app.cacheBuffer surface buffer).commitRoot env surface id tile = .ok app') :
    Told Allowed app app' ∧ Sized roots size app' := by
  obtain ⟨cached, hcached, hcopy⟩ := copyCommittedShmBuffer_copy hcopied
  have hisRoot : app.isRootSurfaceForWindow surface id = true := by simp [isRootSurfaceForWindow, hroot]
  rw [hisRoot, if_pos rfl] at hcopy
  obtain ⟨b, hb, hwhole⟩ := whole_of_copy hcopy
  obtain ⟨window, hwindow, hsurface⟩ := Option.map_eq_some_iff.1 ((hk.consistent.root surface id).1 hroot)
  have hwindow' : (app.cacheBuffer surface buffer).windows.get? id = some window := by simpa using hwindow
  obtain ⟨htold, hfaces, hbuffers, hroots⟩ :=
    paintedRoot_spec hwindow' hwhole (hk.allowed cached b hb) surface
  rw [commitRoot_eq] at h
  have hrepaint : Told Allowed ((app.cacheBuffer surface buffer).paintedRoot surface id tile) app' :=
    told_repaintMovedChildSurfaces (fun hfirst => by cases hfirst) h
  refine ⟨((told_cacheBuffer app surface buffer).trans htold).trans hrepaint, ?_⟩
  obtain ⟨hwindows, hbuffers', hroots'⟩ := repaintMovedChildSurfaces_frame h
  refine hs.resized hk.consistent b.size hroot (fun i => ?_) (fun key hkey => ?_) (fun new hnew => ?_) ?_
  · rw [face, hwindows, ← face, hfaces i, hsurface]
    simp [face]
  · rw [hbuffers', hbuffers, get?_cacheBuffer app buffer (Ne.symm hkey)]
  · rw [hbuffers', hbuffers, hcached] at hnew
    obtain rfl := Option.some.inj hnew
    exact (hk.steady cached b hb).symm
  · rw [hroots', hroots]
    cases buffer <;> rfl

/-- A root without a new tile. -/
theorem told_commit_rootNone (hs : Sized roots size (app.cacheBuffer surface buffer))
    (hsteady : Steady size env)
    (h : (app.cacheBuffer surface buffer).repaintMovedChildSurfaces env id true = .ok app') :
    Told Allowed app app' ∧ Sized roots size app' := by
  obtain ⟨hwindows, hbuffers, hroots⟩ := repaintMovedChildSurfaces_frame h
  refine ⟨(told_cacheBuffer app surface buffer).trans (told_repaintMovedChildSurfaces
    (fun _ tile htile => hs.cachedTile_inside hsteady htile) h), ?_⟩
  exact hs.of_eq (fun i => by rw [face, hwindows, face]) (fun key b hb => hbuffers ▸ hb) hroots

/-- A child with another buffer leaves the sizes alone. -/
theorem Sized.trackChild (hs : Sized roots size app) (hk : Knows roots size Allowed app env)
    {x y : Int32} (hroot : app.surfaceToWindow.get? surface = none)
    (hoffset : app.surfaceWindowOffset env surface = some (id, x, y)) (buffer : CommitBuffer) :
    Told Allowed app ((app.trackChild surface id).cacheBuffer surface buffer) ∧
      Sized roots size ((app.trackChild surface id).cacheBuffer surface buffer) := by
  refine ⟨(told_of_eq rfl rfl).trans (told_cacheBuffer (app.trackChild surface id) surface buffer),
    hs.cacheChild hk.consistent hroot (hk.child hroot hoffset) (fun i => ?_) (fun key hkey => ?_) ?_⟩
  · simp [face, App.trackChild]
  · exact get?_cacheBuffer (app.trackChild surface id) buffer (Ne.symm hkey)
  · cases buffer <;> rfl

theorem told_commit_childTile (hs : Sized roots size app) (hk : Knows roots size Allowed app env)
    {x y : Int32} (hroot : app.surfaceToWindow.get? surface = none)
    (hoffset : app.surfaceWindowOffset env surface = some (id, x, y))
    (hcopied : (app.copyCommittedShmBuffer env surface buffer damageCount id x y).2 = .ok (some tile))
    (h : ((app.trackChild surface id).cacheBuffer surface buffer).commitChild env surface id x y
      tile = .ok app') : Told Allowed app app' ∧ Sized roots size app' := by
  obtain ⟨htracked, hsized⟩ := hs.trackChild hk hroot hoffset buffer
  obtain ⟨window, hwindow⟩ := (app.windows.contains_iff id).1 (hk.consistent.offset_contains hoffset)
  obtain ⟨cached, -, hcopy⟩ := copyCommittedShmBuffer_copy hcopied
  have hisRoot : app.isRootSurfaceForWindow surface id = false := by simp [isRootSurfaceForWindow, hroot]
  rw [hisRoot, if_neg Bool.false_ne_true, hwindow, Option.map_some] at hcopy
  obtain ⟨hid, hinside⟩ := inside_of_clipped hcopy
  have hsizes : ((app.trackChild surface id).cacheBuffer surface buffer).sizes = app.sizes := by
    funext i
    simp [sizes, face, App.trackChild]
  rw [commitChild_eq h]
  refine ⟨htracked.trans ((told_of_eq rfl rfl).trans (told_enqueueTiles fun t ht => ?_)),
    hsized.of_eq (fun _ => rfl) (fun _ _ hb => hb) rfl⟩
  obtain ht | ht := List.mem_append.1 ht
  · split at ht
    · exact hsized.cachedTile_inside hk.steady (Option.mem_toList.1 ht)
    · cases ht
  · rw [List.mem_singleton.1 ht, hid]
    exact ⟨window.size, (congrFun hsizes id).trans (sizes_eq_some hwindow), hinside⟩

theorem told_forgotten (app : App) (surface : ObjectId) : Told Allowed app (app.forgotten surface) := by
  obtain ⟨htx, hwindows, -⟩ := forgotten_frame app surface
  refine told_of_eq htx ?_
  funext i
  rw [sizes, face, hwindows]
  rfl

/-- A surface goes, and its window may be painted again. -/
theorem Sized.forget (hs : Sized roots size app) (hsteady : Steady size env) (surface : ObjectId)
    {tiles : List FrameTile}
    (htiles : ∀ t ∈ tiles, ∃ i, (app.forgotten surface).cachedTile env i = some t) :
    Told Allowed app ((app.forgotten surface).enqueueTiles tiles) ∧
      Sized roots size ((app.forgotten surface).enqueueTiles tiles) := by
  refine ⟨(told_forgotten app surface).trans (told_enqueueTiles fun t ht => ?_),
    (hs.forgotten surface).of_eq (fun _ => rfl) (fun _ _ hb => hb) rfl⟩
  obtain ⟨i, hi⟩ := htiles t ht
  exact (hs.forgotten surface).cachedTile_inside hsteady hi

theorem told_committed (hs : Sized roots size app) (hk : Knows roots size Allowed app env)
    (hcopies : app.CopySucceeds { env, event := .commit surface buffer damageCount })
    (h : Committed app env surface buffer damageCount app') :
    Told Allowed app app' ∧ Sized roots size app' := by
  -- a new buffer of a root has a tile
  have hnew {windowId : UInt64} (hroot : app.surfaceToWindow.get? surface = some windowId)
      (hnone : ∀ tile, (app.copyCommittedShmBuffer env surface buffer damageCount windowId 0 0).2 ≠
        .ok (some tile)) (b : BufferId) : buffer ≠ .new b := by
    rintro rfl
    obtain ⟨tile, hcopy⟩ := hcopies windowId hroot
    cases tile with
    | none => exact copyShmBuffer_ne_none _ _ hcopy
    | some tile =>
      refine hnone tile ?_
      rw [copyCommittedShmBuffer_root hroot]
      exact hcopy
  cases h with
  | dropped => exact ⟨told_of_eq rfl rfl, hs⟩
  | rootTile hroot hcopied hcommit => exact told_commit_rootTile hs hk hroot hcopied hcommit
  | rootNone hroot hcopied hrepaint =>
    refine told_commit_rootNone (hs.cacheBuffer (hnew hroot fun tile => ?_) surface) hk.steady hrepaint
    rw [hcopied]
    simp
  | rootError hroot hcopied =>
    refine ⟨told_cacheBuffer app surface buffer, hs.cacheBuffer (hnew hroot fun tile => ?_) surface⟩
    rw [hcopied]
    simp
  | childTile hroot hoffset hcopied hcommit =>
    exact told_commit_childTile hs hk hroot hoffset hcopied hcommit
  | childNone hroot hoffset _ _ => exact hs.trackChild hk hroot hoffset buffer
  | childRemoved hroot hoffset _ hrepaint =>
    rw [forgotten_trackChild] at hrepaint
    rw [repaintWindowFromCachedBuffer_eq hrepaint]
    exact hs.forget hk.steady surface fun t ht => ⟨_, Option.mem_toList.1 ht⟩

end Commit

theorem told_forgetSurface (hs : Sized roots size app) (hsteady : Steady size env)
    (h : app.forgetSurface env surface = .ok app') :
    Told Allowed app app' ∧ Sized roots size app' := by
  rw [forgetSurface_eq h]
  refine hs.forget hsteady surface fun t ht => ?_
  split at ht
  · exact ⟨_, Option.mem_toList.1 ht⟩
  · cases ht

theorem routePopup_frame (app : App) (env : Env) (surface : ObjectId) (parent : Option ObjectId)
    (positioner : PositionerState) :
    (app.routePopup env surface parent positioner).1.tx = app.tx ∧
      (app.routePopup env surface parent positioner).1.windows = app.windows ∧
      (app.routePopup env surface parent positioner).1.currentBuffers = app.currentBuffers := by
  obtain heq | ⟨route, -, heq⟩ := routePopup_cases app env surface parent positioner
  · rw [heq]
    exact ⟨rfl, rfl, rfl⟩
  · rw [heq]
    exact ⟨rfl, rfl, rfl⟩

/-- **The messages of a callback lead from the sizes before it to the sizes after it.** -/
theorem step_tells (hs : Sized roots size app) {call : Call}
    (hk : Knows roots size Allowed app call.env) (hroles : KeepsRoles roots call)
    (hfree : ∀ surface title appId, call.event = .newToplevel surface title appId →
      app.surfaceToWindow.get? surface = none)
    (hcopies : app.CopySucceeds call) (h : app.step call = .ok app') :
    Told Allowed app app' ∧ Sized roots size app' := by
  cases step_scene h with
  | same _ hscene =>
    exact ⟨hscene.told, hs.of_eq hscene.faces (fun _ _ hb => hscene.currentBuffers ▸ hb)
      hscene.surfaceToWindow⟩
  | created hevent =>
    exact ⟨told_newToplevel app _ _ _, hs.created _ _ (hfree _ _ _ hevent)
      (hroles.toplevel _ _ _ hevent)⟩
  | closed _ hroot => exact ⟨told_toplevelDestroyed _ hroot, hs.closed _ hroot⟩
  | @routed surface parent positioner hevent =>
    obtain ⟨htx, hwindows, hbuffers⟩ := routePopup_frame app call.env surface parent positioner
    refine ⟨told_of_eq htx ?_, hs.of_eq (fun i => ?_) (fun _ _ hb => hbuffers ▸ hb) (by simp)⟩
    · funext i
      rw [sizes, face, hwindows]
      rfl
    · rw [face, hwindows, face]
  | committed hevent hcommit =>
    obtain ⟨env, event⟩ := call
    obtain rfl := hevent
    exact told_committed hs hk hcopies hcommit
  | forgot _ hforget => exact told_forgetSurface hs hk.steady hforget
  | released =>
    refine ⟨told_of_eq rfl rfl, hs.of_eq (fun _ => rfl) (fun key b hb => ?_) rfl⟩
    exact (Option.filter_eq_some_iff.1 hb).1

/-! ## Sessions -/

/-- The copies that the commits of a session make of the roots' new buffers succeed. -/
def CopiesSucceed : App → List Call → Prop
  | _, [] => True
  | app, call :: calls =>
    app.CopySucceeds call ∧ ∀ app', app.step call = .ok app' → CopiesSucceed app' calls

theorem Sized.run {calls : List Call} {n : Nat} {live : Set ObjectId} (hs : Sized roots size app)
    (hopened : Opened n live app) (hkept : RolesKept roots app) (horder : OneToplevel live calls)
    (hfew : n + calls.countP opensWindow < 2 ^ 64) (hroles : ∀ call ∈ calls, KeepsRoles roots call)
    (hsteady : ∀ call ∈ calls, Steady size call.env)
    (hallowed : ∀ call ∈ calls, ∀ buffer b, call.env.shm buffer = some b → Allowed b.size)
    (hcopies : app.CopiesSucceed calls) (h : app.run calls = .ok app') : Told Allowed app app' := by
  induction calls generalizing app n live with
  | nil =>
    cases h
    exact told_of_eq rfl rfl
  | cons call calls ih =>
    obtain ⟨app₁, happ₁, h⟩ := bind_eq_ok.1 h
    obtain ⟨n₁, hopened₁, hfew₁⟩ := hopened.first horder hfew happ₁
    have hrole := hroles call List.mem_cons_self
    have hknows : Knows roots size Allowed app call.env :=
      ⟨hopened.consistent, hkept, hrole.subsurface, hsteady call List.mem_cons_self,
        hallowed call List.mem_cons_self⟩
    have hfree : ∀ surface title appId, call.event = .newToplevel surface title appId →
        app.surfaceToWindow.get? surface = none := by
      intro surface title appId hevent
      have hmay := horder.1
      simp only [MayOpen, hevent] at hmay
      exact hopened.free hmay
    obtain ⟨htold, hs₁⟩ := step_tells hs hknows hrole hfree hcopies.1 happ₁
    exact htold.trans (ih hs₁ hopened₁ (hkept.step hrole happ₁) horder.2 hfew₁
      (fun call' hcall' => hroles call' (List.mem_cons_of_mem _ hcall'))
      (fun call' hcall' => hsteady call' (List.mem_cons_of_mem _ hcall'))
      (fun call' hcall' => hallowed call' (List.mem_cons_of_mem _ hcall')) (hcopies.2 app₁ happ₁) h)

end App
end Compositor
end VBox
