import VBox.Session.Repaint
import VBox.Viewer.Picture

/-!
# Viewer.Composition

A window and its children in the one buffer of the viewer. A child is painted over the window's own
tile, and the compositor sends that again for other reasons than the child.

* `windowTile`: the tile of the window itself that a callback has the viewer paint.
* `child_still_shown_iff`: the pixels of a child survive a callback for another surface exactly where
  that tile leaves them, unless the child is sent again too.
-/

namespace VBox.Compositor

open Raster

namespace App

variable {app app' : App} {env : Env} {surface child : ObjectId} {id : UInt64} {tile : FrameTile}

/-- Some child of the window is not where its record says. -/
def someChildMoved (app : App) (env : Env) (id : UInt64) : Bool :=
  match app.windows.get? id with
  | none => false
  | some window =>
    match app.movedChildren env id window.size with
    | .ok m => m.parentRepaintNeeded
    | .error _ => false

/-- The tile of the window's own buffer that is painted for a surface of the window: a commit of the
root, a child that has moved or has no buffer any more, or the end of a popup. -/
def windowTile (app : App) (env : Env) (id : UInt64) : Event → Option FrameTile
  | .commit surface buffer damageCount =>
    let cached := app.cacheBuffer surface buffer
    match app.surfaceWindowOffset env surface with
    | none => none
    | some (_, x, y) =>
      match (app.copyCommittedShmBuffer env surface buffer damageCount id x y).2 with
      | .ok (some tile) =>
        if app.surfaceToWindow.contains surface then some tile
        else if app.geomChanged surface (x, y, tile.w, tile.h) then cached.cachedTile env id
        else none
      | .ok none =>
        if app.surfaceToWindow.contains surface then
          if cached.someChildMoved env id then cached.cachedTile env id else none
        else if buffer = .removed then cached.cachedTile env id
        else none
      | .error _ => none
  | .destroyed surface | .popupDestroyed surface =>
    match app.popupRoutes.get? surface with
    | some route =>
      if route.windowId = id then (app.cacheBuffer surface .removed).cachedTile env id else none
    | none => none
  | _ => none

/-- A commit, a move or the end of another surface of the window. -/
def OtherSurface (app : App) (call : Call) (id : UInt64) (child : ObjectId) : Prop :=
  match call.event with
  | .commit surface _ _ =>
    surface ≠ child ∧ ∃ x y, app.surfaceWindowOffset call.env surface = some (id, x, y)
  | .repositionRequest surface _ _ | .destroyed surface | .popupDestroyed surface => surface ≠ child
  | _ => False

/-- The size of the window after a commit of its root. -/
def rootSize (app : App) (env : Env) (surface : ObjectId) (buffer : CommitBuffer) (damageCount : Nat)
    (id : UInt64) : Option Size :=
  (app.windows.get? id).map fun window =>
    match (app.copyCommittedShmBuffer env surface buffer damageCount id 0 0).2 with
    | .ok (some tile) => nonzeroSize (tile.w, tile.h)
    | _ => window.size

/-- A commit of the window's root finds the child at another rectangle than recorded. -/
def Shifts (app : App) (call : Call) (id : UInt64) (child : ObjectId) : Prop :=
  match call.event with
  | .commit surface buffer damageCount =>
    app.surfaceToWindow.get? surface = some id ∧
      ∃ size childSurface x y cached b,
        app.rootSize call.env surface buffer damageCount id = some size ∧
        (child, childSurface) ∈ app.candidates call.env id ∧
        app.surfaceWindowOffset call.env childSurface = some (id, x, y) ∧
        app.currentBuffers.get? child = some cached ∧ call.env.shm cached = some b ∧
        app.geomChanged child (clippedRect b x y size) = true
  | _ => False

/-- What is queued for the window: its own tile, and then tiles of children. -/
structure Composed (app : App) (call : Call) (id : UInt64) (child : ObjectId) (tile : FrameTile)
    (app' : App) (rest : List FrameTile) : Prop where
  queued : app.queuedTiles app' id = (app.windowTile call.env id call.event).toList ++ rest
  children : ∀ t ∈ rest, ∃ key, app'.childTile call.env id key = some t ∧
    (key = child → app.Shifts call id child)
  shifted : app.Shifts call id child →
    tile ∈ rest ∨ app.windowTile call.env id call.event = none

/-- Only the window's own tile, for a child that stays. -/
theorem Composed.nil {call : Call}
    (hqueued : app.queuedTiles app' id = (app.windowTile call.env id call.event).toList)
    (hshifts : ¬ app.Shifts call id child) : Composed app call id child tile app' [] :=
  ⟨by rw [hqueued, List.append_nil], fun _ ht => (nomatch ht), fun h => absurd h hshifts⟩

theorem cachedTile_congr (hwindows : app'.windows = app.windows)
    (hbuffers : app'.currentBuffers = app.currentBuffers) :
    app'.cachedTile env id = app.cachedTile env id := by
  simp only [cachedTile, hwindows, hbuffers]

theorem cachedTile_forgotten (app : App) (env : Env) (surface : ObjectId) (id : UInt64) :
    (app.forgotten surface).cachedTile env id =
      (app.cacheBuffer surface .removed).cachedTile env id := by
  refine cachedTile_congr ?_ ?_
  · unfold forgotten removePopupRouteForSurface
    split <;> rfl
  · unfold forgotten removePopupRouteForSurface
    split <;> rfl

theorem tx_forgotten (app : App) (surface : ObjectId) : (app.forgotten surface).tx = app.tx := by
  unfold forgotten removePopupRouteForSurface
  split <;> rfl

/-- A window painted again counts for that window alone. -/
theorem queuedTiles_cachedTile {app₁ app₂ : App} (htx : app₁.tx = app.tx) (windowId : UInt64) :
    app.queuedTiles (app₁.enqueueTiles (app₂.cachedTile env windowId).toList) id =
      if windowId = id then (app₂.cachedTile env windowId).toList else [] := by
  rw [queuedTiles_of_tx (show (app₁.enqueueTiles (app₂.cachedTile env windowId).toList).tx =
    app.tx ++ _ by rw [enqueueTiles, htx])]
  cases hcached : app₂.cachedTile env windowId with
  | none => simp
  | some tile =>
    have hid := cachedTile_id hcached
    by_cases hwindow : windowId = id
    · simp [tileFor, hid, hwindow]
    · simp [tileFor, hid, hwindow]

/-- The window's own tile is the only one for the end of a surface. -/
theorem composed_forgetSurface {call : Call}
    (hevent : call.event = .destroyed surface ∨ call.event = .popupDestroyed surface)
    (h : app.forgetSurface call.env surface = .ok app') :
    Composed app call id child tile app' [] := by
  refine Composed.nil ?_ ?_
  · have htile : app.windowTile call.env id call.event = match app.popupRoutes.get? surface with
        | some route =>
          if route.windowId = id then (app.cacheBuffer surface .removed).cachedTile call.env id
          else none
        | none => none := by
      obtain hevent | hevent := hevent
      · rw [hevent]; rfl
      · rw [hevent]; rfl
    have hforget := forgetSurface_eq h
    cases hroute : app.popupRoutes.get? surface with
    | none =>
      have hnone : (app.removePopupRouteForSurface surface).2 = none := by
        simp [removePopupRouteForSurface, hroute]
      rw [hnone] at hforget
      rw [htile, hroute, hforget]
      exact queuedTiles_enqueueTiles (tx_forgotten app surface) fun _ ht => (nomatch ht)
    | some route =>
      have hsome : (app.removePopupRouteForSurface surface).2 = some route.windowId := by
        simp [removePopupRouteForSurface, hroute]
      rw [hsome] at hforget
      rw [htile, hroute, hforget]
      refine (queuedTiles_cachedTile (tx_forgotten app surface) route.windowId).trans ?_
      by_cases hid : route.windowId = id
      · simp only [hid, if_true]
        exact congrArg Option.toList (cachedTile_forgotten app call.env surface id)
      · simp [hid]
  · obtain hevent | hevent := hevent
    · simp [Shifts, hevent]
    · simp [Shifts, hevent]

/-! ## Commits -/

section Child

variable {buffer : CommitBuffer} {damageCount : Nat} {x y : Int32} {committed : FrameTile}

/-- A child that commits has the window painted first where it has moved. -/
theorem queuedTiles_commit_child (hroot : app.surfaceToWindow.get? surface = none)
    (hoffset : app.surfaceWindowOffset env surface = some (id, x, y))
    (hcopied : (app.copyCommittedShmBuffer env surface buffer damageCount id x y).2 =
      .ok (some committed))
    (h : ((app.trackChild surface id).cacheBuffer surface buffer).commitChild env surface id x y
      committed = .ok app') :
    app.queuedTiles app' id =
      (app.windowTile env id (.commit surface buffer damageCount)).toList ++ [committed] := by
  obtain ⟨cached, -, hcopy⟩ := copyCommittedShmBuffer_copy hcopied
  have hqueued := queuedTiles_commitChild (tile_id_of_copy hcopy) h
  rw [cacheBuffer_trackChild] at hqueued
  have hcachedTile : ((app.cacheBuffer surface buffer).trackChild surface id).cachedTile env id =
      (app.cacheBuffer surface buffer).cachedTile env id := rfl
  have hchanged : ((app.cacheBuffer surface buffer).trackChild surface id).geomChanged surface
      (x, y, committed.w, committed.h) = app.geomChanged surface (x, y, committed.w, committed.h) := by
    simp [geomChanged, trackChild]
  have hsame : ((app.cacheBuffer surface buffer).trackChild surface id).queuedTiles app' id =
      app.queuedTiles app' id := by simp [queuedTiles, trackChild]
  rw [hcachedTile, hchanged, hsame] at hqueued
  rw [hqueued]
  have hchild : app.surfaceToWindow.contains surface = false := by simp [Table.contains, hroot]
  simp only [windowTile, hoffset, hcopied, hchild, Bool.false_eq_true, if_false]
  split <;> rfl

/-- What it queues is its tile from then on. -/
theorem childTile_commit_child {window : RemoteWindow}
    (hroot : app.surfaceToWindow.get? surface = none)
    (hoffset : app'.surfaceWindowOffset env surface = some (id, x, y))
    (hwindow : app.windows.get? id = some window)
    (hcopied : (app.copyCommittedShmBuffer env surface buffer damageCount id x y).2 =
      .ok (some committed))
    (h : ((app.trackChild surface id).cacheBuffer surface buffer).commitChild env surface id x y
      committed = .ok app') : app'.childTile env id surface = some committed := by
  obtain ⟨cached, hcached, hcopy⟩ := copyCommittedShmBuffer_copy hcopied
  rw [cacheBuffer_trackChild] at h
  have happ' := commitChild_eq h
  refine childTile_eq_some.2 ⟨surface, x, y, window, cached, ?_, hoffset, ?_, ?_, ?_⟩
  · rw [happ']
    simp [enqueueTiles, updatePopupSize, trackChild]
  · rw [happ']
    simpa [enqueueTiles, updatePopupSize, trackChild] using hwindow
  · rw [happ']
    exact hcached
  · simp only [isRootSurfaceForWindow, hroot, Bool.false_eq_true, if_false, hwindow,
      Option.map_some] at hcopy
    exact hcopy

end Child

/-- The commit of a child that has nothing to show is no tile of the window. -/
theorem windowTile_childNone {buffer : CommitBuffer} {damageCount : Nat} {x y : Int32}
    (hroot : app.surfaceToWindow.get? surface = none)
    (hoffset : app.surfaceWindowOffset env surface = some (id, x, y))
    (hnone : tileOf (app.copyCommittedShmBuffer env surface buffer damageCount id x y).2 = none)
    (hremoved : buffer ≠ .removed) :
    app.windowTile env id (.commit surface buffer damageCount) = none := by
  have hchild : app.surfaceToWindow.contains surface = false := by simp [Table.contains, hroot]
  simp only [windowTile, hoffset, hchild, Bool.false_eq_true, if_false, hremoved]
  split
  · rename_i tile' hcopied
    rw [hcopied] at hnone
    cases hnone
  · rfl
  · rfl

/-- The commit of a child. -/
theorem composed_commit_child {buffer : CommitBuffer} {damageCount : Nat} {x y : Int32}
    (hroot : app.surfaceToWindow.get? surface = none) (hne : surface ≠ child)
    (hoffset : app.surfaceWindowOffset env surface = some (id, x, y))
    (h : app.commit env surface buffer damageCount = .ok app')
    (htile : app'.childTile env id child = some tile) :
    ∃ rest, Composed app { env, event := .commit surface buffer damageCount } id child tile app'
      rest := by
  have hshifts : ¬ app.Shifts { env, event := .commit surface buffer damageCount } id child := by
    simp [Shifts, hroot]
  have hchild : app.surfaceToWindow.contains surface = false := by simp [Table.contains, hroot]
  cases commit_cases h with
  | dropped hnone => rw [hoffset] at hnone; cases hnone
  | rootTile hother | rootNone hother | rootError hother => rw [hroot] at hother; cases hother
  | childTile _ hoffset' hcopied hcommit =>
    rw [hoffset] at hoffset'
    cases hoffset'
    have hremoved : buffer ≠ .removed := by
      rintro rfl
      cases hcopied
    have hkept : Kept app app' := kept_of_action (tableAction_commit hremoved) h
    obtain ⟨_, _, _, window, _, -, -, hwindow, -, -⟩ := childTile_eq_some.1 htile
    rw [commitChild_eq hcommit] at hwindow
    replace hwindow : app.windows.get? id = some window := by
      simpa [enqueueTiles, updatePopupSize, trackChild] using hwindow
    refine ⟨_, queuedTiles_commit_child hroot hoffset hcopied hcommit, fun t ht => ⟨surface, ?_,
      fun hkey => absurd hkey hne⟩, fun hs => absurd hs hshifts⟩
    rw [List.mem_singleton.1 ht]
    exact childTile_commit_child hroot ((hkept.offset env surface).trans hoffset) hwindow hcopied
      hcommit
  | childNone _ hoffset' hnone hremoved =>
    rw [hoffset] at hoffset'
    cases hoffset'
    refine ⟨[], .nil ?_ hshifts⟩
    have htile := windowTile_childNone hroot hoffset hnone hremoved
    have htx : ((app.trackChild surface id).cacheBuffer surface buffer).tx = app.tx ++ [] := by
      simp [trackChild]
    rw [htile, queuedTiles_of_tx htx]
    rfl
  | childRemoved _ hoffset' hremoved hrepaint =>
    rw [hoffset] at hoffset'
    cases hoffset'
    subst hremoved
    refine ⟨[], .nil ?_ hshifts⟩
    rw [forgotten_trackChild] at hrepaint
    rw [repaintWindowFromCachedBuffer_eq hrepaint]
    refine (queuedTiles_cachedTile (tx_forgotten app surface) id).trans ?_
    rw [if_pos rfl, cachedTile_forgotten]
    simp [windowTile, hoffset, hchild, copyCommittedShmBuffer]

/-- The compositor once the commit of a root is done but for the children. -/
structure RootPainted (app : App) (env : Env) (surface : ObjectId) (buffer : CommitBuffer)
    (damageCount : Nat) (id : UInt64) (child : ObjectId) (painted : App) : Prop where
  same : SameTables app painted
  rects : painted.childSurfaceLastRect = app.childSurfaceLastRect
  cached : painted.currentBuffers.get? child = app.currentBuffers.get? child
  size : (painted.windows.get? id).map RemoteWindow.size =
    app.rootSize env surface buffer damageCount id

/-- Where the loop over the children finds a child is known before the commit. -/
theorem RootPainted.shifts {painted : App} {buffer : CommitBuffer} {damageCount : Nat}
    (hpainted : RootPainted app env surface buffer damageCount id child painted)
    (hroot : app.surfaceToWindow.get? surface = some id)
    (htile : painted.childTile env id child = some tile) :
    app.Shifts { env, event := .commit surface buffer damageCount } id child ↔
      painted.Moves env id child tile := by
  have hcandidates : painted.candidates env id = app.candidates env id := by
    simp only [candidates, hpainted.same.childSurfaceWindow, hpainted.same.childSurfaces]
  have hoffset := hpainted.same.kept.offset env
  have hchanged (rect : ChildRect) : painted.geomChanged child rect = app.geomChanged child rect := by
    simp only [geomChanged, hpainted.rects]
  obtain ⟨childSurface, x, y, window, cached, hsurface, hplace, hwindow, hbuffer, hcopy⟩ :=
    childTile_eq_some.1 htile
  obtain ⟨b, hshm, hrect⟩ := clippedRect_of_copy hcopy
  have hsize := hpainted.size
  rw [hwindow, Option.map_some] at hsize
  constructor
  · rintro ⟨-, size, s, x', y', cached', b', hsize', hmem, hoffset', hcached', hshm', hmoved⟩
    rw [← hcandidates] at hmem
    rw [← hoffset] at hoffset'
    obtain rfl : s = childSurface := Option.some.inj ((mem_candidates hmem).symm.trans hsurface)
    rw [hplace] at hoffset'
    rw [← hpainted.cached, hbuffer] at hcached'
    rw [← hsize] at hsize'
    cases hoffset'
    cases hcached'
    cases hsize'
    rw [hshm] at hshm'
    cases hshm'
    rw [hrect] at hmoved
    exact ⟨s, x, y, hmem, hplace, (hchanged _).trans hmoved⟩
  · rintro ⟨s, x', y', hmem, hoffset', hmoved⟩
    obtain rfl : s = childSurface := Option.some.inj ((mem_candidates hmem).symm.trans hsurface)
    rw [hplace] at hoffset'
    cases hoffset'
    refine ⟨hroot, window.size, s, x, y, cached, b, hsize.symm, hcandidates ▸ hmem,
      (hoffset s).symm.trans hplace, hpainted.cached.symm.trans hbuffer, hshm, ?_⟩
    rw [hrect, ← hchanged]
    exact hmoved

/-- The loop over the children after a commit of the root. -/
theorem composed_of_moved {painted : App} {first : Bool} {buffer : CommitBuffer} {damageCount : Nat}
    (hroot : app.surfaceToWindow.get? surface = some id)
    (hpainted : RootPainted app env surface buffer damageCount id child painted)
    (hrepaint : painted.repaintMovedChildSurfaces env id first = .ok app')
    (htile : app'.childTile env id child = some tile)
    (hqueued : ∀ window m, painted.windows.get? id = some window →
      painted.movedChildren env id window.size = .ok m →
      app' = { painted with childSurfaceLastRect := m.lastRect }.enqueueTiles
        ((if m.parentRepaintNeeded ∧ first then (painted.cachedTile env id).toList else []) ++
          m.changedTiles) → (∀ t ∈ m.changedTiles, t.id = id) →
      app.queuedTiles app' id =
        (app.windowTile env id (.commit surface buffer damageCount)).toList ++ m.changedTiles) :
    ∃ rest, Composed app { env, event := .commit surface buffer damageCount } id child tile app' rest := by
  have hoffset := (same_repaintMovedChildSurfaces hrepaint).kept.offset env
  obtain ⟨hnone, rfl⟩ | ⟨window, m, hwindow, hm, happ'⟩ := repaintMovedChildSurfaces_eq hrepaint
  · obtain ⟨_, _, _, window, _, -, -, hwindow, -, -⟩ := childTile_eq_some.1 htile
    rw [hnone] at hwindow
    cases hwindow
  have hchildren (key : ObjectId) :
      app'.childTile env id key = painted.childTile env id key := by
    refine childTile_congr hoffset ?_ ?_ ?_ key
    · rw [happ']; rfl
    · rw [happ']; rfl
    · rw [happ']; rfl
  rw [hchildren] at htile
  have hshifts := hpainted.shifts hroot htile
  have hloop := moves_of_changedTiles hwindow hm
  have hids : ∀ t ∈ m.changedTiles, t.id = id := by
    intro t ht
    obtain ⟨key, hkey, -⟩ := hloop t ht
    exact childTile_id hkey
  refine ⟨m.changedTiles, hqueued window m hwindow hm happ' hids, fun t ht => ?_,
    fun hs => .inl ((hshifts.1 hs).mem_changedTiles hwindow hm htile)⟩
  obtain ⟨key, hkey, hmoves⟩ := hloop t ht
  refine ⟨key, by rw [hchildren, hkey], ?_⟩
  rintro rfl
  rw [htile] at hkey
  cases hkey
  exact hshifts.2 hmoves

theorem resizeRootWindow_frame (app : App) (id : UInt64) (width height : UInt32) :
    (app.resizeRootWindow id width height).1.tx = app.tx ∧
    (app.resizeRootWindow id width height).1.childSurfaceLastRect = app.childSurfaceLastRect ∧
    (app.resizeRootWindow id width height).1.currentBuffers = app.currentBuffers ∧
    (((app.resizeRootWindow id width height).1.windows.get? id).map RemoteWindow.size =
      (app.windows.get? id).map fun _ => nonzeroSize (width, height)) := by
  unfold resizeRootWindow
  split
  · rename_i hnone
    exact ⟨rfl, rfl, rfl, by simp [hnone]⟩
  · rename_i window hwindow
    simp only
    split
    · rename_i hsize
      exact ⟨rfl, rfl, rfl, by simp [hwindow, hsize]⟩
    · exact ⟨rfl, rfl, rfl, by simp [setWindow, hwindow]⟩

/-- The root's tile is queued, perhaps after the new geometry, and then come the children. -/
theorem commitRoot_painted (h : app.commitRoot env surface id tile = .ok app') :
    ∃ painted msgs, painted.repaintMovedChildSurfaces env id false = .ok app' ∧
      painted.tx = app.tx ++ msgs ++ [.frameTile tile] ∧ msgs.filterMap (tileFor id) = [] ∧
      SameTables app painted ∧ painted.childSurfaceLastRect = app.childSurfaceLastRect ∧
      painted.currentBuffers = app.currentBuffers ∧
      ((painted.windows.get? id).map RemoteWindow.size =
        (app.windows.get? id).map fun _ => nonzeroSize (tile.w, tile.h)) := by
  have hsame := (same_updatePopupSize app surface tile.w tile.h).trans
    (same_resizeRootWindow _ id tile.w tile.h)
  obtain ⟨htx, hrects, hbuffers, hsize⟩ :=
    resizeRootWindow_frame (app.updatePopupSize surface tile.w tile.h) id tile.w tile.h
  replace htx := htx.trans (show _ = app.tx from rfl)
  simp only [commitRoot] at h
  split at h
  · rename_i geom hgeom
    refine ⟨_, [.windowEvent (.configured id geom)], h, ?_, rfl, ?_, hrects, hbuffers, hsize⟩
    · simp [enqueueMessage, htx]
    · exact (hsame.trans (same_enqueueMessage _ _)).trans (same_enqueueMessage _ _)
  · refine ⟨_, [], h, ?_, rfl, hsame.trans (same_enqueueMessage _ _), hrects, hbuffers, hsize⟩
    simp [enqueueMessage, htx]

/-- The root's own tile and those of the children that have moved. -/
theorem queuedTiles_painted {painted : App} {msgs : List Message}
    (htx : painted.tx = app.tx ++ msgs ++ [.frameTile tile]) (hmsgs : msgs.filterMap (tileFor id) = [])
    (hid : tile.id = id) {tiles : List FrameTile} (hids : ∀ t ∈ tiles, t.id = id)
    (happ' : app'.tx = painted.tx ++ tiles.map Message.frameTile) :
    app.queuedTiles app' id = [tile] ++ tiles := by
  have htx' : app'.tx = app.tx ++ (msgs ++ [.frameTile tile] ++ tiles.map Message.frameTile) := by
    rw [happ', htx]
    simp
  rw [queuedTiles_of_tx htx', List.filterMap_append, List.filterMap_append, hmsgs,
    filterMap_tileFor hids]
  simp [tileFor, hid]

section Root

variable {buffer : CommitBuffer} {damageCount : Nat}

/-- A root with a new tile. -/
theorem composed_rootTile {tile' : FrameTile} (hroot : app.surfaceToWindow.get? surface = some id)
    (hne : surface ≠ child)
    (hcopied : (app.copyCommittedShmBuffer env surface buffer damageCount id 0 0).2 = .ok (some tile'))
    (hcommit : (app.cacheBuffer surface buffer).commitRoot env surface id tile' = .ok app')
    (htile : app'.childTile env id child = some tile) :
    ∃ rest, Composed app { env, event := .commit surface buffer damageCount } id child tile app'
      rest := by
  obtain ⟨painted, msgs, hrepaint, htx, hmsgs, hsame, hrects, hbuffers, hsize⟩ :=
    commitRoot_painted hcommit
  have hpainted : RootPainted app env surface buffer damageCount id child painted := by
    refine ⟨(same_cacheBuffer app surface buffer).trans hsame, hrects.trans (by simp), ?_, ?_⟩
    · rw [hbuffers, get?_cacheBuffer app buffer hne]
    · rw [hsize]
      simp [rootSize, hcopied]
  refine composed_of_moved hroot hpainted hrepaint htile ?_
  intro window m hwindow hm happ' hids
  have hwindowTile : app.windowTile env id (.commit surface buffer damageCount) = some tile' := by
    simp only [windowTile, surfaceWindowOffset_root hroot, hcopied, Table.contains_of_get? hroot,
      if_true]
  obtain ⟨cached, -, hcopy⟩ := copyCommittedShmBuffer_copy hcopied
  rw [tx_cacheBuffer] at htx
  rw [hwindowTile]
  refine queuedTiles_painted htx hmsgs (tile_id_of_copy hcopy) hids ?_
  rw [happ']
  simp [enqueueTiles]

/-- A root with nothing new, after which the children may have moved. -/
theorem composed_rootNone (hroot : app.surfaceToWindow.get? surface = some id)
    (hne : surface ≠ child)
    (hcopied : (app.copyCommittedShmBuffer env surface buffer damageCount id 0 0).2 = .ok none)
    (hrepaint : (app.cacheBuffer surface buffer).repaintMovedChildSurfaces env id true = .ok app')
    (htile : app'.childTile env id child = some tile) :
    ∃ rest, Composed app { env, event := .commit surface buffer damageCount } id child tile app'
      rest := by
  have hpainted : RootPainted app env surface buffer damageCount id child
      (app.cacheBuffer surface buffer) :=
    ⟨same_cacheBuffer app surface buffer, by simp, get?_cacheBuffer app buffer hne,
      by simp [rootSize, hcopied]⟩
  refine composed_of_moved hroot hpainted hrepaint htile ?_
  intro window m hwindow hm happ' hids
  have hmoved : (app.cacheBuffer surface buffer).someChildMoved env id = m.parentRepaintNeeded := by
    simp only [someChildMoved, hwindow, hm]
  have hwindowTile : app.windowTile env id (.commit surface buffer damageCount) =
      if m.parentRepaintNeeded then (app.cacheBuffer surface buffer).cachedTile env id else none := by
    simp only [windowTile, surfaceWindowOffset_root hroot, hcopied, Table.contains_of_get? hroot,
      if_true, hmoved]
  have htiles : (if m.parentRepaintNeeded = true ∧ true = true then
        ((app.cacheBuffer surface buffer).cachedTile env id).toList else []) =
      (if m.parentRepaintNeeded then (app.cacheBuffer surface buffer).cachedTile env id
        else none).toList := by
    cases m.parentRepaintNeeded <;> simp
  rw [hwindowTile, happ', htiles]
  refine queuedTiles_enqueueTiles (by simp) fun t ht => ?_
  obtain ht | ht := List.mem_append.1 ht
  · rw [Option.mem_toList] at ht
    split at ht
    · exact cachedTile_id ht
    · cases ht
  · exact hids t ht

theorem composed_commit_root (hroot : app.surfaceToWindow.get? surface = some id)
    (hne : surface ≠ child) (h : app.commit env surface buffer damageCount = .ok app')
    (htile : app'.childTile env id child = some tile) :
    ∃ rest, Composed app { env, event := .commit surface buffer damageCount } id child tile app'
      rest := by
  have hoffset : app.surfaceWindowOffset env surface = some (id, 0, 0) := surfaceWindowOffset_root hroot
  cases commit_cases h with
  | dropped hnone => rw [hoffset] at hnone; cases hnone
  | childTile hother | childNone hother | childRemoved hother => rw [hroot] at hother; cases hother
  | rootTile hroot' hcopied hcommit =>
    obtain rfl := Option.some.inj (hroot.symm.trans hroot')
    exact composed_rootTile hroot hne hcopied hcommit htile
  | rootNone hroot' hcopied hrepaint =>
    obtain rfl := Option.some.inj (hroot.symm.trans hroot')
    exact composed_rootNone hroot hne hcopied hrepaint htile
  | rootError hroot' hcopied =>
    obtain rfl := Option.some.inj (hroot.symm.trans hroot')
    have hnone : app.windowTile env id (.commit surface buffer damageCount) = none := by
      simp only [windowTile, hoffset, hcopied]
    refine ⟨[], ?_, fun _ ht => absurd ht List.not_mem_nil, fun _ => .inr hnone⟩
    have htx : (app.cacheBuffer surface buffer).tx = app.tx ++ [] := by simp
    rw [hnone, queuedTiles_of_tx htx]
    rfl

end Root

theorem composed {call : Call} (hother : OtherSurface app call id child)
    (h : app.step call = .ok app') (htile : app'.childTile call.env id child = some tile) :
    ∃ rest, Composed app call id child tile app' rest := by
  obtain ⟨env, event⟩ := call
  cases event with
  | commit surface buffer damageCount =>
    obtain ⟨hne, x, y, hoffset⟩ := hother
    cases hroot : app.surfaceToWindow.get? surface with
    | none => exact composed_commit_child hroot hne hoffset h htile
    | some windowId =>
      rw [surfaceWindowOffset_root hroot] at hoffset
      cases hoffset
      exact composed_commit_root hroot hne h htile
  | repositionRequest surface parent positioner =>
    cases h
    refine ⟨[], .nil ?_ (by simp [Shifts])⟩
    have htx : (app.routePopup env surface parent positioner).1.tx = app.tx ++ [] := by
      rw [List.append_nil]
      unfold routePopup
      split
      · rfl
      · split <;> rfl
    exact queuedTiles_of_tx htx
  | destroyed surface => exact ⟨[], composed_forgetSurface (.inl rfl) h⟩
  | popupDestroyed surface => exact ⟨[], composed_forgetSurface (.inr rfl) h⟩
  | _ => exact hother.elim

/-! ## Pixels -/

/-- No tile of a buffer reaches beyond a `u32`. -/
theorem fits_of_copy {buffer : Option ShmBuffer} {x y : Int32} {bounds : Option SurfaceBounds}
    (h : copyShmBufferWithBounds buffer id x y bounds = .ok (some tile)) : tile.Fits := by
  obtain ⟨b, rect, bytes, -, hrect, -, -, rfl⟩ := copyShmBuffer_tile h
  have hwithin := surfaceCopyRect_within hrect
  have hright := hwithin.right
  have hbottom := hwithin.bottom
  have hx := x.toInt_lt
  have hy := y.toInt_lt
  have hw := b.width.toInt_lt
  have hh := b.height.toInt_lt
  rw [toNat_nonnegative] at hright hbottom
  constructor
  · show rect.dstX.toNat + rect.width.toNat < _
    rw [hwithin.dstX, toNat_nonnegative]
    omega
  · show rect.dstY.toNat + rect.height.toNat < _
    rw [hwithin.dstY, toNat_nonnegative]
    omega

theorem cachedTile_fits (h : app.cachedTile env id = some tile) : tile.Fits := by
  obtain ⟨_, _, -, -, hcopy⟩ := cachedTile_eq_some.1 h
  exact fits_of_copy hcopy

theorem childTile_fits {key : ObjectId} (h : app.childTile env id key = some tile) : tile.Fits := by
  obtain ⟨_, _, _, _, _, -, -, -, -, hcopy⟩ := childTile_eq_some.1 h
  exact fits_of_copy hcopy

theorem windowTile_fits {event : Event} (h : app.windowTile env id event = some tile) : tile.Fits := by
  cases event with
  | commit surface buffer damageCount =>
    simp only [windowTile] at h
    split at h
    · cases h
    split at h
    · rename_i hcopied
      split at h
      · cases h
        obtain ⟨_, -, hcopy⟩ := copyCommittedShmBuffer_copy hcopied
        exact fits_of_copy hcopy
      · split at h
        · exact cachedTile_fits h
        · cases h
    · split at h
      · split at h
        · exact cachedTile_fits h
        · cases h
      · split at h
        · exact cachedTile_fits h
        · cases h
    · cases h
  | destroyed surface | popupDestroyed surface =>
    simp only [windowTile] at h
    split at h
    · split at h
      · exact cachedTile_fits h
      · cases h
    · cases h
  | _ => cases h

theorem Composed.fits {call : Call} {rest : List FrameTile}
    (hcomposed : Composed app call id child tile app' rest) :
    ∀ t ∈ app.queuedTiles app' id, t.Fits := by
  intro t ht
  rw [hcomposed.queued, List.mem_append, Option.mem_toList] at ht
  obtain ht | ht := ht
  · exact windowTile_fits ht
  · obtain ⟨key, hkey, -⟩ := hcomposed.children t ht
    exact childTile_fits hkey

/-- A pixel that shows a child: before a callback it has the child's colour, and after it the child
has that colour there and no other child has any. -/
structure ChildPixel (app app' : App) (env : Env) (id : UInt64) (child : ObjectId) (f : FrameBuffer)
    (i j : Nat) (c : UInt32) : Prop where
  before : ∃ tile, app.childTile env id child = some tile ∧ tile.paints i j = some c
  shown : f.pixel i j = c
  after : ∃ tile, app'.childTile env id child = some tile ∧ tile.paints i j = some c
  uncovered : ∀ key t, key ≠ child → app'.childTile env id key = some t → t.paints i j = none

/-- The child is sent again after the window, or the window's tile leaves the pixel as it is. -/
def Spared (app : App) (call : Call) (id : UInt64) (child : ObjectId) (i j : Nat) (c : UInt32) : Prop :=
  app.Shifts call id child ∨ ∀ own, app.windowTile call.env id call.event = some own →
    own.paints i j = none ∨ own.paints i j = some c

theorem childPixel_shown_iff {call : Call} {f f' : FrameBuffer} {i j : Nat} {c : UInt32}
    (hother : OtherSurface app call id child) (h : app.step call = .ok app')
    (happly : f.applyTiles (app.queuedTiles app' id) = .ok f')
    (hpixel : ChildPixel app app' call.env id child f i j c) :
    f'.pixel i j = c ↔ Spared app call id child i j c := by
  obtain ⟨tile, htile, hpaints⟩ := hpixel.after
  obtain ⟨rest, hcomposed⟩ := composed hother h htile
  have hresult := FrameBuffer.pixel_applyTiles hcomposed.fits happly i j
  rw [hcomposed.queued, FrameTile.lastPaint_append, hpixel.shown] at hresult
  by_cases hshifts : app.Shifts call id child
  · refine iff_of_true ?_ (.inl hshifts)
    have hrest : ∀ t ∈ rest, t.paints i j = none ∨ t.paints i j = some c := by
      intro t ht
      obtain ⟨key, hkey, -⟩ := hcomposed.children t ht
      by_cases hchild : key = child
      · subst hchild
        rw [htile] at hkey
        cases hkey
        exact .inr hpaints
      · exact .inl (hpixel.uncovered key t hchild hkey)
    rw [hresult]
    obtain hmem | hnone := hcomposed.shifted hshifts
    · rw [FrameTile.lastPaint_of_mem hrest hmem hpaints]
      rfl
    · rw [hnone]
      obtain hlast | hlast := FrameTile.lastPaint_cases hrest
      · rw [hlast]; rfl
      · rw [hlast]; rfl
  · -- no child paints the pixel again
    have hlast : FrameTile.lastPaint rest i j = none := by
      refine FrameTile.lastPaint_eq_none fun t ht => ?_
      obtain ⟨key, hkey, hchild⟩ := hcomposed.children t ht
      exact hpixel.uncovered key t (fun heq => hshifts (hchild heq)) hkey
    rw [hresult, hlast, Option.none_or]
    cases hown : app.windowTile call.env id call.event with
    | none => simp [Spared, hown]
    | some own => cases hpaint : own.paints i j <;> simp [Spared, hown, hshifts, hpaint]

/-- **The pixels of a child survive a callback for another surface exactly where the callback spares
them.** -/
theorem child_still_shown_iff (app app' : App) (call : Call) (id : UInt64) (child : ObjectId)
    (hother : OtherSurface app call id child) (h : app.step call = .ok app') (f f' : FrameBuffer)
    (happly : f.applyTiles (app.queuedTiles app' id) = .ok f') :
    (∀ i j c, ChildPixel app app' call.env id child f i j c → f'.pixel i j = c) ↔
      ∀ i j c, ChildPixel app app' call.env id child f i j c → Spared app call id child i j c := by
  constructor
  · intro hshown i j c hpixel
    exact (childPixel_shown_iff hother h happly hpixel).1 (hshown i j c hpixel)
  · intro hspared i j c hpixel
    exact (childPixel_shown_iff hother h happly hpixel).2 (hspared i j c hpixel)

/-- An only child that is where it was. -/
theorem ChildPixel.only {f : FrameBuffer} {i j : Nat} {c : UInt32}
    (h : app.childTile env id child = some tile) (h' : app'.childTile env id child = some tile)
    (honly : app'.childSurfaces = Table.empty.insert child child) (hpaints : tile.paints i j = some c)
    (hshown : f.pixel i j = c) : ChildPixel app app' env id child f i j c := by
  refine ⟨⟨tile, h, hpaints⟩, hshown, ⟨tile, h', hpaints⟩, fun key t hkey ht => ?_⟩
  simp [childTile, honly, hkey] at ht

/-- A root commit that attaches nothing. -/
theorem child_still_shown_idle : ∃ app app' blank f f',
    (start ⟨"vbox", 640, 480⟩).run dotOnBar = .ok app ∧ FrameBuffer.new 1 1 = .ok blank ∧
    blank.applyTiles ((start ⟨"vbox", 640, 480⟩).queuedTiles app 1) = .ok f ∧
    app.step { env := besideEnv 0, event := .commit 0 .none 0 } = .ok app' ∧
    f.applyTiles (app.queuedTiles app' 1) = .ok f' ∧
    ChildPixel app app' (besideEnv 0) 1 1 f 0 0 0xffff0000 ∧
    ∀ i j c, ChildPixel app app' (besideEnv 0) 1 1 f i j c → f'.pixel i j = c := by
  refine ⟨_, _, _, _, _, rfl, rfl, rfl, rfl, rfl, ?_, ?_⟩
  · refine .only rfl rfl rfl ?_ ?_
    · decide +kernel
    · decide +kernel
  · refine (child_still_shown_iff _ _ { env := besideEnv 0, event := .commit 0 .none 0 } 1 1
      ⟨by decide, _, _, rfl⟩ rfl _ _ rfl).2 fun i j c _ => .inr fun own hown => ?_
    cases hown

/-- The bar is committed again: it is painted over the dot, which has not moved and is not sent
again. -/
theorem child_erased : ∃ app app' blank f f',
    (start ⟨"vbox", 640, 480⟩).run dotOnBar = .ok app ∧ FrameBuffer.new 1 1 = .ok blank ∧
    blank.applyTiles ((start ⟨"vbox", 640, 480⟩).queuedTiles app 1) = .ok f ∧
    OtherSurface app { env := besideEnv 0, event := .commit 0 (.new 8) 0 } 1 1 ∧
    app.step { env := besideEnv 0, event := .commit 0 (.new 8) 0 } = .ok app' ∧
    f.applyTiles (app.queuedTiles app' 1) = .ok f' ∧
    ChildPixel app app' (besideEnv 0) 1 1 f 0 0 0xffff0000 ∧ f'.pixel 0 0 = 0xff0000ff := by
  refine ⟨_, _, _, _, _, rfl, rfl, rfl, ⟨?_, _, _, rfl⟩, rfl, rfl, ?_, ?_⟩
  · decide
  · refine .only rfl rfl rfl ?_ ?_
    · decide +kernel
    · decide +kernel
  · decide +kernel

end App
end VBox.Compositor
