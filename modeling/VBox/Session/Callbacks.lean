import VBox.Session.Compositor

/-!
# Session.Callbacks

What the callbacks of the compositor can do, said once for all the properties of a session. The
repaints only queue tiles (`repaintWindowFromCachedBuffer_eq`, `repaintMovedChildSurfaces_eq`), and
`commit_cases` lists the ways a commit can end.
-/

namespace VBox.Compositor

open Raster

namespace App

variable {app app' : App} {env : Env} {surface : ObjectId} {id : UInt64}

/-- Tiles are queued, and nothing else changes. -/
def enqueueTiles (app : App) (tiles : List FrameTile) : App :=
  { app with tx := app.tx ++ tiles.map .frameTile }

@[simp] theorem enqueueTiles_nil (app : App) : app.enqueueTiles [] = app := by
  simp [enqueueTiles]

theorem enqueueTiles_cons (app : App) (tile : FrameTile) (tiles : List FrameTile) :
    app.enqueueTiles (tile :: tiles) = (app.enqueueMessage (.frameTile tile)).enqueueTiles tiles := by
  simp [enqueueTiles, enqueueMessage]

theorem foldl_enqueueMessage (tiles : List FrameTile) (app : App) :
    tiles.foldl (fun app tile => app.enqueueMessage (.frameTile tile)) app =
      app.enqueueTiles tiles := by
  induction tiles generalizing app with
  | nil => simp
  | cons tile tiles ih => rw [List.foldl_cons, ih, enqueueTiles_cons]

/-- The tile of a copy, if it gives one. -/
def tileOf : Except CopyError (Option FrameTile) → Option FrameTile
  | .ok tile => tile
  | .error _ => none

theorem logged_eq {copied : Except CopyError (Option FrameTile)} {tile : Option FrameTile}
    (h : logged copied = .ok tile) : tile = tileOf copied := by
  unfold logged at h
  split at h
  · cases h; rfl
  · cases h
  · cases h; rfl

/-- The tile of a window's own buffer, if there is one. -/
def cachedTile (app : App) (env : Env) (windowId : UInt64) : Option FrameTile := do
  let window ← app.windows.get? windowId
  let buffer ← app.currentBuffers.get? window.surface
  tileOf (copyShmBuffer (env.shm buffer) windowId 0 0)

theorem tileOf_eq_some {copied : Except CopyError (Option FrameTile)} {tile : FrameTile} :
    tileOf copied = some tile ↔ copied = .ok (some tile) := by
  cases copied with
  | ok found => simp [tileOf]
  | error e => simp [tileOf]

theorem cachedTile_eq_some {tile : FrameTile} : app.cachedTile env id = some tile ↔
    ∃ window buffer, app.windows.get? id = some window ∧
      app.currentBuffers.get? window.surface = some buffer ∧
      copyShmBuffer (env.shm buffer) id 0 0 = .ok (some tile) := by
  simp [cachedTile, Option.bind_eq_some_iff, tileOf_eq_some]

theorem cachedTile_id {tile : FrameTile} (h : app.cachedTile env id = some tile) : tile.id = id := by
  obtain ⟨window, buffer, -, -, hcopy⟩ := cachedTile_eq_some.1 h
  exact tile_id_of_copy hcopy

theorem repaintWindowFromCachedBuffer_eq
    (h : app.repaintWindowFromCachedBuffer env id = .ok app') :
    app' = app.enqueueTiles (app.cachedTile env id).toList := by
  unfold repaintWindowFromCachedBuffer at h
  unfold cachedTile
  cases hwindow : app.windows.get? id with
  | none =>
    rw [hwindow] at h
    cases h
    simp
  | some window =>
    simp only [hwindow] at h
    cases hbuffer : app.currentBuffers.get? window.surface with
    | none =>
      simp only [hbuffer] at h
      cases h
      simp [hbuffer]
    | some buffer =>
      simp only [hbuffer] at h
      obtain ⟨tile, hlogged, h⟩ := bind_eq_ok.1 h
      have htile := logged_eq hlogged
      simp only [Option.bind_eq_bind, Option.bind_some, hbuffer, ← htile]
      cases tile with
      | none => cases h; simp
      | some tile => cases h; simp [enqueueTiles, enqueueMessage]

/-- The loop over the children of a window. -/
def movedChildren (app : App) (env : Env) (windowId : UInt64) (size : Size) : Except Fault Moved :=
  (app.candidates env windowId).foldlM
    (app.repaintMovedChild env windowId { width := size.1, height := size.2 })
    { lastRect := app.childSurfaceLastRect, changedTiles := [], parentRepaintNeeded := false }

/-- The children that moved are queued, after the parent's own tile where that is asked for. -/
theorem repaintMovedChildSurfaces_eq {first : Bool}
    (h : app.repaintMovedChildSurfaces env id first = .ok app') :
    (app.windows.get? id = none ∧ app' = app) ∨
      ∃ window m, app.windows.get? id = some window ∧
        app.movedChildren env id window.size = .ok m ∧
        app' = { app with childSurfaceLastRect := m.lastRect }.enqueueTiles
          ((if m.parentRepaintNeeded ∧ first then (app.cachedTile env id).toList else []) ++
            m.changedTiles) := by
  unfold repaintMovedChildSurfaces at h
  cases hwindow : app.windows.get? id with
  | none =>
    simp only [hwindow] at h
    cases h
    exact .inl ⟨rfl, rfl⟩
  | some window =>
    simp only [hwindow] at h
    obtain ⟨m, hm, h⟩ := bind_eq_ok.1 h
    refine .inr ⟨window, m, rfl, hm, ?_⟩
    by_cases hfirst : m.parentRepaintNeeded ∧ first
    · rw [if_pos hfirst] at h
      obtain ⟨app₁, happ₁, h⟩ := bind_eq_ok.1 h
      cases h
      rw [foldl_enqueueMessage, repaintWindowFromCachedBuffer_eq happ₁, if_pos hfirst]
      simp [enqueueTiles, cachedTile]
    · rw [if_neg hfirst] at h
      cases h
      rw [foldl_enqueueMessage, if_neg hfirst, List.nil_append]

/-- A step of the loop: nothing, or the record is dropped, or the child may have moved. -/
theorem repaintMovedChild_eq {bounds : SurfaceBounds} {m m' : Moved} {child : ObjectId × ObjectId}
    (h : app.repaintMovedChild env id bounds m child = .ok m') :
    m' = m ∨ m' = { m with lastRect := m.lastRect.remove child.1 } ∨
      ∃ newRect tile, m' = m.move child.1 newRect tile := by
  simp only [repaintMovedChild] at h
  split at h
  · cases h; exact .inl rfl
  split at h
  · cases h; exact .inl rfl
  split at h
  · cases h; exact .inr (.inl rfl)
  split at h
  · cases h; exact .inr (.inr ⟨_, _, rfl⟩)
  · cases h; exact .inr (.inr ⟨_, _, rfl⟩)
  · cases h
  · cases h; exact .inl rfl

/-- A child without a record, or where its record says, is left alone. -/
theorem Moved.move_cases (m : Moved) (key : ObjectId) (newRect : ChildRect) (tile : Option FrameTile) :
    m.move key newRect tile = m ∨ ∃ prev, m.lastRect.get? key = some prev ∧ prev ≠ newRect ∧
      m.move key newRect tile =
        { lastRect := m.lastRect.insert key newRect, changedTiles := m.changedTiles ++ tile.toList,
          parentRepaintNeeded := true } := by
  unfold Moved.move
  split
  · exact .inl rfl
  · rename_i prev hprev
    by_cases hsame : prev = newRect
    · rw [if_pos hsame]
      exact .inl rfl
    · rw [if_neg hsame]
      exact .inr ⟨prev, hprev, hsame, rfl⟩

/-- The loop records rectangles only where there is a record. -/
theorem movedChildren_lastRect {size : Size} {m : Moved}
    (h : app.movedChildren env id size = .ok m) :
    ∀ key, app.childSurfaceLastRect.get? key = none → m.lastRect.get? key = none := by
  intro key hkey
  refine foldlM_invariant (I := fun m : Moved => m.lastRect.get? key = none) ?_ hkey h
  rintro ⟨child, childSurface⟩ m m' hm hstep
  obtain rfl | rfl | ⟨newRect, tile, rfl⟩ := repaintMovedChild_eq hstep
  · exact hm
  · simp [hm]
  · obtain hmove | ⟨prev, hprev, -, hmove⟩ := m.move_cases child newRect tile
    · rw [hmove, hm]
    · have hne : key ≠ child := by
        rintro rfl
        rw [hm] at hprev
        cases hprev
      simp [hmove, hne, hm]

/-- The tile of a child is queued after the parent's, where the child has moved. -/
theorem commitChild_eq {x y : Int32} {tile : FrameTile}
    (h : app.commitChild env surface id x y tile = .ok app') :
    app' =
      { app.updatePopupSize surface tile.w tile.h with
        childSurfaceLastRect :=
          app.childSurfaceLastRect.insert surface (x, y, tile.w, tile.h) }.enqueueTiles
        ((if app.geomChanged surface (x, y, tile.w, tile.h) then (app.cachedTile env id).toList
          else []) ++ [tile]) := by
  obtain ⟨app₁, happ₁, h⟩ := bind_eq_ok.1 h
  cases h
  have hsame : (app.updatePopupSize surface tile.w tile.h).geomChanged surface
      (x, y, tile.w, tile.h) = app.geomChanged surface (x, y, tile.w, tile.h) := rfl
  simp only [recordChildRect, hsame] at happ₁
  split at happ₁
  · rename_i hmoved
    rw [repaintWindowFromCachedBuffer_eq happ₁, if_pos hmoved]
    simp [enqueueTiles, enqueueMessage, cachedTile, updatePopupSize]
  · rename_i hmoved
    cases happ₁
    rw [if_neg hmoved]
    simp [enqueueTiles, enqueueMessage, updatePopupSize]

/-- `current_buffers` after a commit. -/
def cacheBuffer (app : App) (surface : ObjectId) : CommitBuffer → App
  | .new buffer => { app with currentBuffers := app.currentBuffers.insert surface buffer }
  | .removed => { app with currentBuffers := app.currentBuffers.remove surface }
  | .none => app

theorem copyCommittedShmBuffer_fst (app : App) (env : Env) (surface : ObjectId)
    (commit : CommitBuffer) (damageCount : Nat) (id : UInt64) (x y : Int32) :
    (app.copyCommittedShmBuffer env surface commit damageCount id x y).1 =
      app.cacheBuffer surface commit := by
  cases commit with
  | new buffer => rfl
  | removed => rfl
  | none =>
    simp only [copyCommittedShmBuffer, cacheBuffer]
    split
    · split <;> rfl
    · rfl

/-- A child surface that commits is known from then on. -/
def trackChild (app : App) (surface : ObjectId) (windowId : UInt64) : App :=
  { app with
    childSurfaceWindow := app.childSurfaceWindow.insert surface windowId
    childSurfaces := app.childSurfaces.insert surface surface }

section CacheBuffer

variable (app : App) (surface key : ObjectId) (buffer : CommitBuffer) (id : UInt64)

theorem cacheBuffer_trackChild : (app.trackChild surface id).cacheBuffer key buffer =
    (app.cacheBuffer key buffer).trackChild surface id := by cases buffer <;> rfl

@[simp] theorem windows_cacheBuffer : (app.cacheBuffer surface buffer).windows = app.windows := by
  cases buffer <;> rfl

@[simp] theorem surfaceToWindow_cacheBuffer :
    (app.cacheBuffer surface buffer).surfaceToWindow = app.surfaceToWindow := by cases buffer <;> rfl

@[simp] theorem popupRoutes_cacheBuffer :
    (app.cacheBuffer surface buffer).popupRoutes = app.popupRoutes := by cases buffer <;> rfl

@[simp] theorem popupOrder_cacheBuffer :
    (app.cacheBuffer surface buffer).popupOrder = app.popupOrder := by cases buffer <;> rfl

@[simp] theorem tx_cacheBuffer : (app.cacheBuffer surface buffer).tx = app.tx := by
  cases buffer <;> rfl

@[simp] theorem childSurfaces_cacheBuffer :
    (app.cacheBuffer surface buffer).childSurfaces = app.childSurfaces := by cases buffer <;> rfl

@[simp] theorem childSurfaceWindow_cacheBuffer :
    (app.cacheBuffer surface buffer).childSurfaceWindow = app.childSurfaceWindow := by
  cases buffer <;> rfl

@[simp] theorem childSurfaceLastRect_cacheBuffer :
    (app.cacheBuffer surface buffer).childSurfaceLastRect = app.childSurfaceLastRect := by
  cases buffer <;> rfl

variable {surface key} in
theorem get?_cacheBuffer (hne : surface ≠ key) :
    (app.cacheBuffer surface buffer).currentBuffers.get? key = app.currentBuffers.get? key := by
  cases buffer with
  | new buffer => simp [cacheBuffer, hne.symm]
  | removed => simp [cacheBuffer, hne.symm]
  | none => rfl

end CacheBuffer

/-- A surface that is the root of a window has the offset zero. -/
theorem surfaceWindowOffset_root (h : app.surfaceToWindow.get? surface = some id) :
    app.surfaceWindowOffset env surface = some (id, 0, 0) := by
  unfold surfaceWindowOffset
  unfold offsetLoop
  simp [h]

theorem forgetSurface_eq (h : app.forgetSurface env surface = .ok app') :
    app' = ((app.removePopupRouteForSurface surface).1.clearChildSurfaceTracking surface).enqueueTiles
      (match (app.removePopupRouteForSurface surface).2 with
        | some windowId =>
          (((app.removePopupRouteForSurface surface).1.clearChildSurfaceTracking surface).cachedTile
            env windowId).toList
        | none => []) := by
  cases hroute : (app.removePopupRouteForSurface surface).2 with
  | none =>
    simp only [forgetSurface, hroute] at h
    cases h
    simp
  | some windowId =>
    simp only [forgetSurface, hroute] at h
    exact repaintWindowFromCachedBuffer_eq h

/-- The ways a commit can end. -/
inductive Committed (app : App) (env : Env) (surface : ObjectId) (buffer : CommitBuffer)
    (damageCount : Nat) : App → Prop
  | dropped : app.surfaceWindowOffset env surface = none →
      Committed app env surface buffer damageCount app
  | rootTile {windowId : UInt64} {tile : FrameTile} {app' : App} :
      app.surfaceToWindow.get? surface = some windowId →
      (app.copyCommittedShmBuffer env surface buffer damageCount windowId 0 0).2 = .ok (some tile) →
      (app.cacheBuffer surface buffer).commitRoot env surface windowId tile = .ok app' →
      Committed app env surface buffer damageCount app'
  | rootNone {windowId : UInt64} {app' : App} :
      app.surfaceToWindow.get? surface = some windowId →
      (app.copyCommittedShmBuffer env surface buffer damageCount windowId 0 0).2 = .ok none →
      (app.cacheBuffer surface buffer).repaintMovedChildSurfaces env windowId true = .ok app' →
      Committed app env surface buffer damageCount app'
  | rootError {windowId : UInt64} {e : CopyError} :
      app.surfaceToWindow.get? surface = some windowId →
      (app.copyCommittedShmBuffer env surface buffer damageCount windowId 0 0).2 = .error e →
      Committed app env surface buffer damageCount (app.cacheBuffer surface buffer)
  | childTile {windowId : UInt64} {x y : Int32} {tile : FrameTile} {app' : App} :
      app.surfaceToWindow.get? surface = none →
      app.surfaceWindowOffset env surface = some (windowId, x, y) →
      (app.copyCommittedShmBuffer env surface buffer damageCount windowId x y).2 = .ok (some tile) →
      ((app.trackChild surface windowId).cacheBuffer surface buffer).commitChild env surface windowId
        x y tile = .ok app' →
      Committed app env surface buffer damageCount app'
  | childNone {windowId : UInt64} {x y : Int32} :
      app.surfaceToWindow.get? surface = none →
      app.surfaceWindowOffset env surface = some (windowId, x, y) →
      tileOf (app.copyCommittedShmBuffer env surface buffer damageCount windowId x y).2 = none →
      buffer ≠ .removed →
      Committed app env surface buffer damageCount
        ((app.trackChild surface windowId).cacheBuffer surface buffer)
  | childRemoved {windowId : UInt64} {x y : Int32} {app' : App} :
      app.surfaceToWindow.get? surface = none →
      app.surfaceWindowOffset env surface = some (windowId, x, y) →
      buffer = .removed →
      ((((app.trackChild surface windowId).cacheBuffer surface .removed).removePopupRouteForSurface
        surface).1.clearChildSurfaceTracking surface).repaintWindowFromCachedBuffer env windowId =
          .ok app' →
      Committed app env surface buffer damageCount app'

theorem copyCommittedShmBuffer_trackChild (app : App) (env : Env) (surface : ObjectId)
    (commit : CommitBuffer) (damageCount : Nat) (windowId id : UInt64) (x y : Int32) :
    ((app.trackChild surface windowId).copyCommittedShmBuffer env surface commit damageCount id x
      y).2 = (app.copyCommittedShmBuffer env surface commit damageCount id x y).2 := by
  cases commit with
  | new buffer => rfl
  | removed => rfl
  | none =>
    simp only [copyCommittedShmBuffer, trackChild]
    split
    · split <;> rfl
    · rfl

theorem commit_root_cases {buffer : CommitBuffer} {damageCount : Nat}
    (hroot : app.surfaceToWindow.get? surface = some id)
    (h : app.commit env surface buffer damageCount = .ok app') :
    Committed app env surface buffer damageCount app' := by
  simp only [commit, surfaceWindowOffset_root hroot, isRootSurfaceForWindow, hroot, beq_self_eq_true,
    and_self, if_true, copyCommittedShmBuffer_fst] at h
  split at h
  · rename_i tile hcopied
    exact .rootTile hroot hcopied h
  · rename_i hcopied
    exact .rootNone hroot hcopied h
  · cases h
  · rename_i e _ hcopied
    cases h
    exact .rootError hroot hcopied

theorem commit_child_cases {buffer : CommitBuffer} {damageCount : Nat} {x y : Int32}
    (hroot : app.surfaceToWindow.get? surface = none)
    (hoffset : app.surfaceWindowOffset env surface = some (id, x, y))
    (h : app.commit env surface buffer damageCount = .ok app') :
    Committed app env surface buffer damageCount app' := by
  have hsnd := copyCommittedShmBuffer_trackChild app env surface buffer damageCount id id x y
  simp only [trackChild] at hsnd
  simp only [commit, hoffset, isRootSurfaceForWindow, hroot, Bool.false_eq_true, and_false, if_false,
    copyCommittedShmBuffer_fst, hsnd] at h
  by_cases hremoved : buffer = .removed
  · subst hremoved
    exact .childRemoved hroot hoffset rfl h
  · simp only [hremoved, if_false] at h
    split at h
    · rename_i tile hcopied
      obtain ⟨app₁, happ₁, h⟩ := bind_eq_ok.1 h
      cases h
      exact .childTile hroot hoffset hcopied happ₁
    · rename_i hcopied
      cases h
      exact .childNone hroot hoffset (by rw [hcopied]; rfl) hremoved
    · cases h
    · rename_i e _ hcopied
      cases h
      exact .childNone hroot hoffset (by rw [hcopied]; rfl) hremoved

theorem commit_cases {buffer : CommitBuffer} {damageCount : Nat}
    (h : app.commit env surface buffer damageCount = .ok app') :
    Committed app env surface buffer damageCount app' := by
  cases hroot : app.surfaceToWindow.get? surface with
  | some windowId => exact commit_root_cases hroot h
  | none =>
    cases hoffset : app.surfaceWindowOffset env surface with
    | none =>
      simp only [commit, hoffset] at h
      cases h
      exact .dropped hoffset
    | some place =>
      obtain ⟨windowId, x, y⟩ := place
      exact commit_child_cases hroot hoffset h

/-! ## A child with a new buffer -/

/-- Painting a window again reads beyond the pool of its buffer. -/
def RepaintPanics (app : App) (env : Env) (id : UInt64) : Prop :=
  ∃ window buffer fault, app.windows.get? id = some window ∧
    app.currentBuffers.get? window.surface = some buffer ∧
    copyShmBuffer (env.shm buffer) id 0 0 = .error (.panicked fault)

theorem repaintWindowFromCachedBuffer_ok_iff :
    (∃ app', app.repaintWindowFromCachedBuffer env id = .ok app') ↔ ¬ app.RepaintPanics env id := by
  unfold repaintWindowFromCachedBuffer
  cases hwindow : app.windows.get? id with
  | none => simp [RepaintPanics, hwindow]
  | some window =>
    simp only
    cases hbuffer : app.currentBuffers.get? window.surface with
    | none => simp [RepaintPanics, hwindow, hbuffer]
    | some buffer =>
      simp only [RepaintPanics, hwindow, Option.some.injEq, exists_and_left, exists_eq_left', hbuffer]
      cases copyShmBuffer (env.shm buffer) id 0 0 with
      | ok tile => cases tile <;> simp [logged, bind, Except.bind, pure, Except.pure]
      | error e => cases e <;> simp [logged, bind, Except.bind, pure, Except.pure]

theorem recordChildRect_ok_iff {newRect : ChildRect} :
    (∃ app', app.recordChildRect env surface id newRect = .ok app') ↔
      (app.geomChanged surface newRect = true → ¬ app.RepaintPanics env id) := by
  unfold recordChildRect
  by_cases hmoved : app.geomChanged surface newRect = true
  · simp only [hmoved, if_true, true_imp_iff]
    exact repaintWindowFromCachedBuffer_ok_iff
  · simp [hmoved]

theorem commitChild_ok_iff {x y : Int32} {tile : FrameTile} :
    (∃ app', app.commitChild env surface id x y tile = .ok app') ↔
      (app.geomChanged surface (x, y, tile.w, tile.h) = true → ¬ app.RepaintPanics env id) := by
  refine Iff.trans ⟨?_, ?_⟩ (recordChildRect_ok_iff : (∃ app', (app.updatePopupSize surface tile.w
    tile.h).recordChildRect env surface id (x, y, tile.w, tile.h) = .ok app') ↔ _)
  · rintro ⟨app', h⟩
    obtain ⟨app₁, happ₁, -⟩ := bind_eq_ok.1 h
    exact ⟨app₁, happ₁⟩
  · rintro ⟨app₁, happ₁⟩
    exact ⟨app₁.enqueueMessage (.frameTile tile), bind_eq_ok.2 ⟨app₁, happ₁, rfl⟩⟩

/-- The copy of a new buffer for a child, clipped to its window. -/
theorem copyCommittedShmBuffer_child {window : RemoteWindow} {x y : Int32}
    (hroot : app.surfaceToWindow.get? surface = none) (hwindow : app.windows.get? id = some window)
    (buffer : BufferId) (damageCount : Nat) :
    (app.copyCommittedShmBuffer env surface (.new buffer) damageCount id x y).2 =
      copyShmBufferClipped (env.shm buffer) id x y
        { width := window.size.1, height := window.size.2 } := by
  simp [copyCommittedShmBuffer, isRootSurfaceForWindow, hroot, hwindow]

/-- A tile is a copy of the buffer that is remembered from the commit on. -/
theorem copyShmBuffer_bounds (buffer : Option ShmBuffer) (id : UInt64) (x y : Int32)
    (bounds : Option SurfaceBounds) :
    (match bounds with
      | some bounds => copyShmBufferClipped buffer id x y bounds
      | none => copyShmBuffer buffer id x y) = copyShmBufferWithBounds buffer id x y bounds := by
  cases bounds <;> rfl

theorem copyCommittedShmBuffer_copy {commit : CommitBuffer} {damageCount : Nat} {x y : Int32}
    {tile : FrameTile}
    (h : (app.copyCommittedShmBuffer env surface commit damageCount id x y).2 = .ok (some tile)) :
    ∃ buffer, (app.cacheBuffer surface commit).currentBuffers.get? surface = some buffer ∧
      copyShmBufferWithBounds (env.shm buffer) id x y
        (if app.isRootSurfaceForWindow surface id then none
          else (app.windows.get? id).map fun window =>
            { width := window.size.1, height := window.size.2 }) = .ok (some tile) := by
  cases commit with
  | new buffer =>
    refine ⟨buffer, by simp [cacheBuffer], ?_⟩
    rw [← copyShmBuffer_bounds]
    exact h
  | removed => cases h
  | none =>
    simp only [copyCommittedShmBuffer] at h
    split at h
    · split at h
      · rename_i buffer hbuffer
        refine ⟨buffer, hbuffer, ?_⟩
        rw [← copyShmBuffer_bounds]
        exact h
      · cases h
    · cases h

theorem commit_child_tile {x y : Int32} {tile : FrameTile} {buffer : BufferId} {damageCount : Nat}
    (hroot : app.surfaceToWindow.get? surface = none)
    (hoffset : app.surfaceWindowOffset env surface = some (id, x, y))
    (hcopied : (app.copyCommittedShmBuffer env surface (.new buffer) damageCount id x y).2 =
      .ok (some tile)) :
    app.commit env surface (.new buffer) damageCount =
      ((app.trackChild surface id).cacheBuffer surface (.new buffer)).commitChild env surface id x y
        tile := by
  have hsnd := copyCommittedShmBuffer_trackChild app env surface (.new buffer) damageCount id id x y
  simp only [trackChild] at hsnd
  simp only [commit, hoffset, isRootSurfaceForWindow, hroot, Bool.false_eq_true, and_false, if_false,
    copyCommittedShmBuffer_fst, hsnd, hcopied, reduceCtorEq]
  exact bind_pure _

def tileFor (id : UInt64) : Message → Option FrameTile
  | .frameTile tile => if tile.id = id then some tile else none
  | _ => none

/-- The tiles that a callback has queued for a window. -/
def queuedTiles (app app' : App) (id : UInt64) : List FrameTile :=
  (app'.tx.drop app.tx.length).filterMap (tileFor id)

theorem queuedTiles_of_tx {msgs : List Message} (h : app'.tx = app.tx ++ msgs) :
    app.queuedTiles app' id = msgs.filterMap (tileFor id) := by
  rw [queuedTiles, h, List.drop_left]

theorem queuedTiles_self (app : App) (id : UInt64) : app.queuedTiles app id = [] := by
  simp [queuedTiles]

theorem filterMap_tileFor {tiles : List FrameTile} (hid : ∀ tile ∈ tiles, tile.id = id) :
    (tiles.map Message.frameTile).filterMap (tileFor id) = tiles := by
  rw [List.filterMap_map]
  refine (List.filterMap_congr fun tile htile => ?_).trans List.filterMap_some
  simp [tileFor, hid tile htile]

/-- Tiles of the window, after what the callback did to the tables. -/
theorem queuedTiles_enqueueTiles (htx : app'.tx = app.tx) {tiles : List FrameTile}
    (hid : ∀ tile ∈ tiles, tile.id = id) : app.queuedTiles (app'.enqueueTiles tiles) id = tiles := by
  rw [queuedTiles_of_tx (show (app'.enqueueTiles tiles).tx = app.tx ++ _ by rw [enqueueTiles, htx]),
    filterMap_tileFor hid]

/-- A child's tile is queued after the window's, if the child has moved. -/
theorem queuedTiles_commitChild {x y : Int32} {tile : FrameTile} (hid : tile.id = id)
    (h : app.commitChild env surface id x y tile = .ok app') :
    app.queuedTiles app' id =
      (if app.geomChanged surface (x, y, tile.w, tile.h) then (app.cachedTile env id).toList
        else []) ++ [tile] := by
  rw [commitChild_eq h]
  refine queuedTiles_enqueueTiles rfl fun t ht => ?_
  obtain ht | ht := List.mem_append.1 ht
  · split at ht
    · exact cachedTile_id (Option.mem_toList.1 ht)
    · cases ht
  · rw [List.mem_singleton.1 ht, hid]

end App
end VBox.Compositor
