import VBox.Session.Popups

/-!
# Session.Repaint

The viewer has one buffer for a window and all its children, so the compositor paints the window
again where a child was before.

* `child_moved_iff`: a child that commits a buffer at another rectangle has the window painted under
  it and is recorded there, exactly when there is a tile of it. A child that has left the window
  stays where it was.
-/

namespace VBox.Compositor

open Raster

namespace App

variable {app app' : App} {env : Env} {surface : ObjectId} {id : UInt64}

/-- A surface that is shown in a window and is not its own. -/
structure IsChild (app : App) (env : Env) (surface : ObjectId) (id : UInt64) (x y : Int32)
    (window : RemoteWindow) : Prop where
  root : app.surfaceToWindow.get? surface = none
  offset : app.surfaceWindowOffset env surface = some (id, x, y)
  live : app.windows.get? id = some window
  ne : window.surface ≠ surface

variable {x y : Int32} {window : RemoteWindow}

/-- Its own buffer does not change the window's. -/
theorem IsChild.cachedTile (hchild : IsChild app env surface id x y window) (buffer : BufferId) :
    ((app.trackChild surface id).cacheBuffer surface (.new buffer)).cachedTile env id =
      app.cachedTile env id := by
  simp [App.cachedTile, cacheBuffer, trackChild, hchild.live, hchild.ne]

/-- The window has a buffer and it is copied first, and the child is recorded at its new
rectangle. -/
structure Repainted (app : App) (env : Env) (surface : ObjectId) (id : UInt64)
    (window : RemoteWindow) (newRect : ChildRect) (app' : App) : Prop where
  record : app'.childSurfaceLastRect.get? surface = some newRect
  first : ∀ buffer, app.currentBuffers.get? window.surface = some buffer →
    ∃ tile rest, copyShmBuffer (env.shm buffer) id 0 0 = .ok (some tile) ∧
      app.queuedTiles app' id = tile :: rest

/-- A tile of the child, and of the window if it has a buffer, is all that is needed. -/
theorem IsChild.repainted (hchild : IsChild app env surface id x y window) {buffer : BufferId}
    {damageCount : Nat} {b : ShmBuffer} (hshm : env.shm buffer = some b) {prev : ChildRect}
    (hprev : app.childSurfaceLastRect.get? surface = some prev)
    (hmoved : prev ≠ clippedRect b x y window.size) {tile : FrameTile}
    (htile : copyShmBufferClipped (some b) id x y
      { width := window.size.1, height := window.size.2 } = .ok (some tile))
    (hparent : ∀ cached, app.currentBuffers.get? window.surface = some cached →
      ∃ tile, copyShmBuffer (env.shm cached) id 0 0 = .ok (some tile)) :
    ∃ app', app.commit env surface (.new buffer) damageCount = .ok app' ∧
      Repainted app env surface id window (clippedRect b x y window.size) app' := by
  have hcopied : (app.copyCommittedShmBuffer env surface (.new buffer) damageCount id x y).2 =
      .ok (some tile) := by
    rw [copyCommittedShmBuffer_child hchild.root hchild.live, hshm]
    exact htile
  obtain ⟨_, hb, hrect⟩ := clippedRect_of_copy htile
  cases hb
  have hchanged : ((app.trackChild surface id).cacheBuffer surface (.new buffer)).geomChanged
      surface (x, y, tile.w, tile.h) = true := by
    rw [← hrect]
    simp [geomChanged, cacheBuffer, trackChild, hprev, hmoved]
  have hcalm : ¬ ((app.trackChild surface id).cacheBuffer surface (.new buffer)).RepaintPanics env
      id := by
    rintro ⟨window', cached, fault, hwindow', hcached, hpanic⟩
    obtain rfl : window = window' := Option.some.inj (hchild.live.symm.trans hwindow')
    simp only [cacheBuffer, trackChild, Table.get?_insert, if_neg hchild.ne] at hcached
    obtain ⟨tile, hok⟩ := hparent cached hcached
    rw [hok] at hpanic
    cases hpanic
  obtain ⟨app', h⟩ := commitChild_ok_iff.2 fun _ => hcalm
  refine ⟨app', (commit_child_tile hchild.root hchild.offset hcopied).trans h, ?_, ?_⟩
  · rw [commitChild_eq h, hrect]
    simp [enqueueTiles]
  · intro cached hcached
    obtain ⟨parentTile, hok⟩ := hparent cached hcached
    have hfirst : app.cachedTile env id = some parentTile :=
      cachedTile_eq_some.2 ⟨window, cached, hchild.live, hcached, hok⟩
    have hqueued := queuedTiles_commitChild (tile_id_of_copy htile) h
    rw [hchild.cachedTile, hfirst, if_pos hchanged] at hqueued
    exact ⟨parentTile, [tile], hok, hqueued⟩

/-- **A child at a new rectangle has the window painted again and is recorded there, exactly when
its buffer gives a tile**, which needs a part of it inside the window, and the window's buffer does
too. -/
theorem child_moved_iff (hchild : IsChild app env surface id x y window) (buffer : BufferId)
    (damageCount : Nat) (b : ShmBuffer) (hshm : env.shm buffer = some b) (prev : ChildRect)
    (hprev : app.childSurfaceLastRect.get? surface = some prev)
    (hmoved : prev ≠ clippedRect b x y window.size) :
    (∃ app', app.commit env surface (.new buffer) damageCount = .ok app' ∧
        Repainted app env surface id window (clippedRect b x y window.size) app') ↔
      (∃ tile, copyShmBufferClipped (some b) id x y
          { width := window.size.1, height := window.size.2 } = .ok (some tile)) ∧
        ∀ cached, app.currentBuffers.get? window.surface = some cached →
          ∃ tile, copyShmBuffer (env.shm cached) id 0 0 = .ok (some tile) := by
  have hcopied : (app.copyCommittedShmBuffer env surface (.new buffer) damageCount id x y).2 =
      copyShmBufferClipped (some b) id x y { width := window.size.1, height := window.size.2 } := by
    rw [copyCommittedShmBuffer_child hchild.root hchild.live, hshm]
  constructor
  · rintro ⟨app', h, hrepainted⟩
    refine ⟨?_, fun cached hcached => ?_⟩
    · cases commit_cases h with
      | dropped hoffset => rw [hchild.offset] at hoffset; cases hoffset
      | rootTile hroot | rootNone hroot | rootError hroot =>
        rw [hchild.root] at hroot
        cases hroot
      | childTile hroot hoffset htile hcommit =>
        rw [hchild.offset] at hoffset
        cases hoffset
        exact ⟨_, hcopied.symm.trans htile⟩
      | childNone =>
        -- the record is as it was
        have hrecord := hrepainted.record
        simp only [cacheBuffer, trackChild, hprev] at hrecord
        exact absurd (Option.some.inj hrecord) hmoved
      | childRemoved _ _ hremoved => cases hremoved
    · obtain ⟨tile, rest, htile, -⟩ := hrepainted.first cached hcached
      exact ⟨tile, htile⟩
  · rintro ⟨⟨tile, htile⟩, hparent⟩
    exact hchild.repainted hshm hprev hmoved htile hparent

/-- Two blue pixels side by side. -/
def bar : ShmBuffer :=
  { offset := 0, width := 2, height := 1, stride := 8, format := .xrgb8888,
    memory := [255, 0, 0, 0, 255, 0, 0, 0] }

/-- Surface 1 is a subsurface of surface 0, at a column. Buffer 8 is the bar and any other the dot. -/
def besideEnv (column : Int32) : Env :=
  { bareEnv with
    ancestors := fun surface => if surface = 1 then [0] else []
    ancestors_tail := by
      intro surface parent rest h
      split at h
      · cases h; rfl
      · cases h
    location := fun _ => (column, 0)
    shm := fun buffer => some (if buffer = 8 then bar else dot)
    surfaceOrder := [1] }

/-- A window with a bar, and a dot on its first pixel. -/
def dotOnBar : List Call :=
  [{ env := besideEnv 0, event := .newToplevel 0 "" "" },
    { env := besideEnv 0, event := .commit 0 (.new 8) 0 },
    { env := besideEnv 0, event := .commit 1 (.new 7) 0 }]

theorem child_moved_right : ∃ app, (start ⟨"vbox", 640, 480⟩).run dotOnBar = .ok app ∧
    ∃ window, app.windows.get? 1 = some window ∧
      ∃ app', app.commit (besideEnv 1) 1 (.new 7) 0 = .ok app' ∧
        Repainted app (besideEnv 1) 1 1 window (clippedRect dot 1 0 window.size) app' := by
  refine ⟨_, rfl, _, rfl, ?_⟩
  refine (child_moved_iff ⟨rfl, rfl, rfl, by decide⟩ 7 0 dot rfl (0, 0, 1, 1) rfl (by decide)).2
    ⟨⟨_, rfl⟩, fun cached hcached => ?_⟩
  cases hcached
  exact ⟨_, rfl⟩

/-- The dot moves out of the window: the window is not painted again, and the record is that of the
first pixel. -/
theorem child_outside_ghost : ∃ app window app', (start ⟨"vbox", 640, 480⟩).run dotOnBar = .ok app ∧
    IsChild app (besideEnv 5) 1 1 5 0 window ∧
    app.childSurfaceLastRect.get? 1 = some (0, 0, 1, 1) ∧
    clippedRect dot 5 0 window.size = (5, 0, 0, 0) ∧
    app.currentBuffers.get? window.surface = some 8 ∧
    app.commit (besideEnv 5) 1 (.new 7) 0 = .ok app' ∧ app.queuedTiles app' 1 = [] ∧
    app'.childSurfaceLastRect.get? 1 = some (0, 0, 1, 1) := by
  refine ⟨_, _, _, rfl, ⟨rfl, rfl, rfl, ?_⟩, rfl, rfl, rfl, rfl, rfl, rfl⟩
  decide

/-! ## The children of a window -/

/-- The tile of a child as it stands. -/
def childTile (app : App) (env : Env) (id : UInt64) (key : ObjectId) : Option FrameTile := do
  let surface ← app.childSurfaces.get? key
  let (windowId, x, y) ← app.surfaceWindowOffset env surface
  let window ← app.windows.get? id
  let buffer ← app.currentBuffers.get? key
  if windowId = id then
    tileOf (copyShmBufferClipped (env.shm buffer) id x y
      { width := window.size.1, height := window.size.2 })
  else none

theorem childTile_eq_some {key : ObjectId} {tile : FrameTile} :
    app.childTile env id key = some tile ↔
      ∃ surface x y window buffer, app.childSurfaces.get? key = some surface ∧
        app.surfaceWindowOffset env surface = some (id, x, y) ∧ app.windows.get? id = some window ∧
        app.currentBuffers.get? key = some buffer ∧
        copyShmBufferClipped (env.shm buffer) id x y
          { width := window.size.1, height := window.size.2 } = .ok (some tile) := by
  constructor
  · intro h
    simp only [childTile, Option.bind_eq_bind, Option.bind_eq_some_iff] at h
    obtain ⟨surface, hsurface, ⟨windowId, x, y⟩, hoffset, window, hwindow, buffer, hbuffer, h⟩ := h
    split at h
    · rename_i hid
      subst hid
      exact ⟨surface, x, y, window, buffer, hsurface, hoffset, hwindow, hbuffer, tileOf_eq_some.1 h⟩
    · cases h
  · rintro ⟨surface, x, y, window, buffer, hsurface, hoffset, hwindow, hbuffer, hcopy⟩
    simp [childTile, hsurface, hoffset, hwindow, hbuffer, hcopy, tileOf]

theorem childTile_id {key : ObjectId} {tile : FrameTile} (h : app.childTile env id key = some tile) :
    tile.id = id := by
  obtain ⟨_, _, _, _, _, -, -, -, -, hcopy⟩ := childTile_eq_some.1 h
  exact tile_id_of_copy hcopy

/-- A child that the loop over the children finds at another rectangle than recorded. -/
def Moves (app : App) (env : Env) (id : UInt64) (child : ObjectId) (tile : FrameTile) : Prop :=
  ∃ surface x y, (child, surface) ∈ app.candidates env id ∧
    app.surfaceWindowOffset env surface = some (id, x, y) ∧
    app.geomChanged child (x, y, tile.w, tile.h) = true

theorem mem_candidates {key childSurface : ObjectId} (h : (key, childSurface) ∈ app.candidates env id) :
    app.childSurfaces.get? key = some childSurface := by
  simp only [candidates, List.mem_filterMap] at h
  obtain ⟨key', -, h⟩ := h
  split at h
  · obtain ⟨s, hs, heq⟩ := Option.map_eq_some_iff.1 h
    cases heq
    exact hs
  · cases h

theorem Moved.get?_move (m : Moved) {key k : ObjectId} (hne : k ≠ key) (newRect : ChildRect)
    (tile : Option FrameTile) : (m.move key newRect tile).lastRect.get? k = m.lastRect.get? k := by
  obtain hmove | ⟨prev, -, -, hmove⟩ := m.move_cases key newRect tile
  · rw [hmove]
  · simp [hmove, hne]

theorem Moved.changedTiles_move_none (m : Moved) (key : ObjectId) (newRect : ChildRect) :
    (m.move key newRect none).changedTiles = m.changedTiles := by
  obtain hmove | ⟨prev, -, -, hmove⟩ := m.move_cases key newRect none
  · rw [hmove]
  · simp [hmove]

/-- A step of the loop: the child has no tile, or it is moved to where its tile is. -/
theorem repaintMovedChild_cases {key childSurface : ObjectId} {m m' : Moved}
    (hwindow : app.windows.get? id = some window)
    (hsurface : app.childSurfaces.get? key = some childSurface)
    (h : app.repaintMovedChild env id { width := window.size.1, height := window.size.2 } m
      (key, childSurface) = .ok m') :
    (app.childTile env id key = none ∧ m'.changedTiles = m.changedTiles ∧
        ∀ k, k ≠ key → m'.lastRect.get? k = m.lastRect.get? k) ∨
      ∃ x y tile, app.surfaceWindowOffset env childSurface = some (id, x, y) ∧
        app.childTile env id key = some tile ∧ m' = m.move key (x, y, tile.w, tile.h) (some tile) := by
  simp only [repaintMovedChild] at h
  split at h
  · rename_i hoffset
    cases h
    exact .inl ⟨by simp [childTile, hsurface, hoffset], rfl, fun _ _ => rfl⟩
  rename_i windowId x y hoffset
  split at h
  · rename_i hother
    cases h
    exact .inl ⟨by simp [childTile, hsurface, hoffset, hwindow, hother], rfl, fun _ _ => rfl⟩
  rename_i hid
  obtain rfl := not_not.1 hid
  split at h
  · rename_i hbuffer
    cases h
    exact .inl ⟨by simp [childTile, hsurface, hwindow, hbuffer], rfl,
      fun k hk => by simp [hk]⟩
  rename_i buffer hbuffer
  have htile : app.childTile env windowId key =
      tileOf (copyShmBufferClipped (env.shm buffer) windowId x y
        { width := window.size.1, height := window.size.2 }) := by
    simp [childTile, hsurface, hoffset, hwindow, hbuffer]
  split at h
  · rename_i tile hcopy
    cases h
    exact .inr ⟨x, y, tile, hoffset, by rw [htile, hcopy]; rfl, rfl⟩
  · rename_i hcopy
    cases h
    exact .inl ⟨by rw [htile, hcopy]; rfl, m.changedTiles_move_none key _,
      fun k hk => m.get?_move hk _ none⟩
  · cases h
  · rename_i e _ hcopy
    cases h
    exact .inl ⟨by rw [htile, hcopy]; rfl, rfl, fun _ _ => rfl⟩

section Loop

variable {child childSurface : ObjectId} {tile : FrameTile} {m m' : Moved}

/-- A tile that is to be queued stays so. -/
theorem mem_changedTiles_step {bounds : SurfaceBounds} {key : ObjectId × ObjectId}
    (hmem : tile ∈ m.changedTiles) (h : app.repaintMovedChild env id bounds m key = .ok m') :
    tile ∈ m'.changedTiles := by
  obtain rfl | rfl | ⟨newRect, moved, rfl⟩ := repaintMovedChild_eq h
  · exact hmem
  · exact hmem
  · obtain hmove | ⟨prev, -, -, hmove⟩ := m.move_cases key.1 newRect moved
    · rw [hmove]
      exact hmem
    · rw [hmove]
      exact List.mem_append_left _ hmem

/-- Until the loop comes to a child its record stands; a child that is not where the record says is
queued then. -/
theorem mem_changedTiles_of_moved (hwindow : app.windows.get? id = some window)
    (hsurface : app.childSurfaces.get? child = some childSurface)
    (hoffset : app.surfaceWindowOffset env childSurface = some (id, x, y))
    (htile : app.childTile env id child = some tile) {prev : ChildRect}
    (hne : prev ≠ (x, y, tile.w, tile.h)) {keys : List (ObjectId × ObjectId)}
    (hkeys : ∀ key s, (key, s) ∈ keys → app.childSurfaces.get? key = some s)
    (hmem : (child, childSurface) ∈ keys) (hprev : m.lastRect.get? child = some prev)
    (h : keys.foldlM (app.repaintMovedChild env id
      { width := window.size.1, height := window.size.2 }) m = .ok m') :
    tile ∈ m'.changedTiles := by
  induction keys generalizing m with
  | nil => cases hmem
  | cons key keys ih =>
    obtain ⟨key, s⟩ := key
    rw [List.foldlM_cons] at h
    obtain ⟨m₁, hm₁, h⟩ := bind_eq_ok.1 h
    have hstep := repaintMovedChild_cases hwindow (hkeys key s List.mem_cons_self) hm₁
    by_cases hkey : key = child
    · subst hkey
      obtain ⟨hnone, -⟩ | ⟨x', y', tile', hoffset', htile', rfl⟩ := hstep
      · rw [htile] at hnone
        cases hnone
      · obtain rfl : s = childSurface :=
          Option.some.inj ((hkeys key s List.mem_cons_self).symm.trans hsurface)
        rw [hoffset] at hoffset'
        rw [htile] at htile'
        cases hoffset'
        cases htile'
        have hqueued : tile ∈ (m.move key (x, y, tile.w, tile.h) (some tile)).changedTiles := by
          simp only [Moved.move, hprev]
          rw [if_neg hne]
          simp
        exact foldlM_invariant (I := fun m : Moved => tile ∈ m.changedTiles)
          (fun _ _ _ hm hstep => mem_changedTiles_step hm hstep) hqueued h
    · have hrecord : m₁.lastRect.get? child = some prev := by
        obtain ⟨-, -, hother⟩ | ⟨x', y', tile', -, -, rfl⟩ := hstep
        · rw [hother child (Ne.symm hkey), hprev]
        · rw [m.get?_move (Ne.symm hkey), hprev]
      have hrest : (child, childSurface) ∈ keys := by
        obtain heq | hmem := List.mem_cons.1 hmem
        · cases heq
          exact absurd rfl hkey
        · exact hmem
      exact ih (fun k s' hmem' => hkeys k s' (List.mem_cons_of_mem _ hmem')) hrest hrecord h

/-- What the loop queues are the tiles of children that it finds at another rectangle. -/
theorem moves_of_changedTiles (hwindow : app.windows.get? id = some window)
    (h : app.movedChildren env id window.size = .ok m) :
    ∀ t ∈ m.changedTiles, ∃ key, app.childTile env id key = some t ∧ app.Moves env id key t := by
  -- a record is as it was, or the loop has been there
  refine (foldlM_invariant_mem (I := fun m : Moved =>
    (∀ key prev t, m.lastRect.get? key = some prev → app.childTile env id key = some t →
      app.childSurfaceLastRect.get? key = some prev ∨ ∃ s x y,
        app.childSurfaces.get? key = some s ∧ app.surfaceWindowOffset env s = some (id, x, y) ∧
        prev = (x, y, t.w, t.h)) ∧
    ∀ t ∈ m.changedTiles, ∃ key, app.childTile env id key = some t ∧ app.Moves env id key t)
    ?_ ⟨?_, ?_⟩ h).2
  · rintro ⟨key, s⟩ hmem m m' ⟨hrecord, htiles⟩ hstep
    obtain ⟨hnone, hsame, hother⟩ | ⟨x, y, t, hoffset, ht, rfl⟩ :=
      repaintMovedChild_cases hwindow (mem_candidates hmem) hstep
    · refine ⟨fun k prev t hprev ht => ?_, hsame ▸ htiles⟩
      have hne : k ≠ key := by
        rintro rfl
        rw [hnone] at ht
        cases ht
      rw [hother k hne] at hprev
      exact hrecord k prev t hprev ht
    obtain hmove | ⟨prev, hprev, hmoved, hmove⟩ := m.move_cases key (x, y, t.w, t.h) (some t)
    · rw [hmove]
      exact ⟨hrecord, htiles⟩
    rw [hmove]
    refine ⟨fun k prev' t' hprev' ht' => ?_, fun t' ht' => ?_⟩
    · rw [Table.get?_insert] at hprev'
      split at hprev'
      · rename_i hk
        subst hk
        rw [ht] at ht'
        cases hprev'
        cases ht'
        exact .inr ⟨s, x, y, mem_candidates hmem, hoffset, rfl⟩
      · exact hrecord k prev' t' hprev' ht'
    · obtain ht' | ht' := List.mem_append.1 ht'
      · exact htiles t' ht'
      · rw [Option.toList_some, List.mem_singleton] at ht'
        subst ht'
        refine ⟨key, ht, s, x, y, hmem, hoffset, ?_⟩
        obtain hinit | ⟨s', x', y', hs', hoffset', hrect⟩ := hrecord key prev t' hprev ht
        · simp [geomChanged, hinit, hmoved]
        · obtain rfl : s' = s := Option.some.inj (hs'.symm.trans (mem_candidates hmem))
          rw [hoffset] at hoffset'
          cases hoffset'
          exact absurd hrect hmoved
  · exact fun key prev t hprev _ => .inl hprev
  · exact fun t ht => absurd ht List.not_mem_nil

/-- A child that moves is queued. -/
theorem Moves.mem_changedTiles (hmoves : app.Moves env id child tile)
    (hwindow : app.windows.get? id = some window)
    (h : app.movedChildren env id window.size = .ok m)
    (htile : app.childTile env id child = some tile) : tile ∈ m.changedTiles := by
  obtain ⟨surface, x, y, hmem, hoffset, hchanged⟩ := hmoves
  unfold geomChanged at hchanged
  split at hchanged
  · rename_i prev hprev
    exact mem_changedTiles_of_moved hwindow (mem_candidates hmem) hoffset htile
      (of_decide_eq_true hchanged) (fun _ _ hmem => mem_candidates hmem) hmem hprev h
  · cases hchanged

end Loop

/-! ## What stays in place -/

theorem offsetLoop_congr (hroots : app'.surfaceToWindow = app.surfaceToWindow)
    (hplaces : ∀ key, (app'.popupRoutes.get? key).map PopupRoute.place =
      (app.popupRoutes.get? key).map PopupRoute.place) (current : ObjectId)
    (ancestors : List ObjectId) (x y : Int32) :
    app'.offsetLoop env current ancestors x y = app.offsetLoop env current ancestors x y := by
  have hnone : ∀ key, app.popupRoutes.get? key = none → app'.popupRoutes.get? key = none := by
    intro key hkey
    have hplace := hplaces key
    rw [hkey] at hplace
    exact Option.map_eq_none_iff.1 hplace
  fun_induction offsetLoop app env current ancestors x y with
  | case1 _ current x y windowId hroot =>
    unfold offsetLoop
    simp [hroots, hroot]
  | case2 ancestors current x y hroot route hroute =>
    have hplace := hplaces current
    rw [hroute, Option.map_some] at hplace
    obtain ⟨route', hroute', hsame⟩ := Option.map_eq_some_iff.1 hplace
    simp only [PopupRoute.place, Prod.mk.injEq] at hsame
    obtain ⟨hid, hx, hy⟩ := hsame
    unfold offsetLoop
    simp [hroots, hroot, hroute', hid, hx, hy]
  | case3 current x y hroot hroute =>
    unfold offsetLoop
    simp [hroots, hroot, hnone current hroute]
  | case4 current x y hroot hroute location parent rest ih =>
    conv_lhs => unfold offsetLoop
    simp only [hroots, hroot, hnone current hroute]
    exact ih

theorem Kept.offset (h : Kept app app') (env : Env) (surface : ObjectId) :
    app'.surfaceWindowOffset env surface = app.surfaceWindowOffset env surface :=
  offsetLoop_congr h.surfaceToWindow h.places _ _ _ _

theorem childTile_congr (hoffset : ∀ surface,
      app'.surfaceWindowOffset env surface = app.surfaceWindowOffset env surface)
    (hwindows : app'.windows = app.windows) (hbuffers : app'.currentBuffers = app.currentBuffers)
    (hchildren : app'.childSurfaces = app.childSurfaces) (key : ObjectId) :
    app'.childTile env id key = app.childTile env id key := by
  simp only [childTile, hoffset, hwindows, hbuffers, hchildren]

end App
end VBox.Compositor
