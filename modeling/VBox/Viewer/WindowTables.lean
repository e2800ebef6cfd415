import VBox.Viewer.Windows

/-!
# Viewer.WindowTables

What the handlers of the viewer keep true of its tables of windows and of held keys.

* `ViewerApp.Kept`: what most handlers do to the tables of windows.
* `ViewerApp.run_consistent`: in every run the tables fit each other, and the viewer exits for want
  of windows only when none is active.
* `ViewerApp.key_ledger`: what the ledger of keys says in every run of its operations.
-/

namespace VBox

open Compositor

namespace ViewerApp

/-! ## The tables -/

/-- How the tables fit each other. -/
structure Linked (app : ViewerApp) : Prop where
  inverse : ∀ window id, app.windowIds.get? window = some id ↔
    ∃ view, app.windows.lookup id = some view ∧ view.window = window
  retired : ∀ id ∈ app.retiredWindowIds, id ∈ app.windows
  resizes : ∀ id, app.pendingResizes.contains id → id ∈ app.windows
  fullscreenExits : ∀ id, app.pendingFullscreenExitResyncs.contains id → id ∈ app.windows
  hostResizes : ∀ id, app.pendingHostResizeResyncs.contains id → id ∈ app.windows

/-- The timer runs only while no window is active. -/
structure Consistent (app : ViewerApp) : Prop extends app.Linked where
  idle : app.emptyWindowsSince.isSome → app.activeWindows = ∅

theorem consistent_new : new.Consistent := by
  refine ⟨⟨fun window id => ?_, ?_, ?_, ?_, ?_⟩, ?_⟩ <;> simp [new, Table.contains]

/-- The name of the host's window for a window of the guest. -/
def hostWindow (app : ViewerApp) (id : UInt64) : Option WindowId :=
  (app.windows.lookup id).map (·.window)

/-- What most handlers do to the tables: the windows and their names stay, and nothing is pending
that was not, except for a window that exists. -/
structure Kept (app app' : ViewerApp) : Prop where
  hostWindow : ∀ id, app'.hostWindow id = app.hostWindow id
  windowIds : app'.windowIds = app.windowIds
  retired : app'.retiredWindowIds = app.retiredWindowIds
  idle : app'.emptyWindowsSince = app.emptyWindowsSince
  exited : app'.exited = app.exited
  resizes : ∀ id, app'.pendingResizes.contains id → app.pendingResizes.contains id ∨ id ∈ app.windows
  fullscreenExits : ∀ id, app'.pendingFullscreenExitResyncs.contains id →
    app.pendingFullscreenExitResyncs.contains id ∨ id ∈ app.windows
  hostResizes : ∀ id, app'.pendingHostResizeResyncs.contains id →
    app.pendingHostResizeResyncs.contains id ∨ id ∈ app.windows

variable {app app' app'' : ViewerApp} {env : HostEnv} {id : UInt64}

theorem mem_windows_iff : id ∈ app.windows ↔ (app.hostWindow id).isSome := by
  rw [hostWindow, Option.isSome_map, Finmap.mem_iff, Option.isSome_iff_exists]

theorem hostWindow_eq_some {window : WindowId} :
    app.hostWindow id = some window ↔
      ∃ view, app.windows.lookup id = some view ∧ view.window = window :=
  Option.map_eq_some_iff

namespace Kept

theorem refl (app : ViewerApp) : Kept app app :=
  ⟨fun _ => rfl, rfl, rfl, rfl, rfl, fun _ => .inl, fun _ => .inl, fun _ => .inl⟩

theorem mem_windows (h : Kept app app') (id : UInt64) : id ∈ app'.windows ↔ id ∈ app.windows := by
  rw [mem_windows_iff, mem_windows_iff, h.hostWindow]

theorem trans (h : Kept app app') (h' : Kept app' app'') : Kept app app'' where
  hostWindow id := (h'.hostWindow id).trans (h.hostWindow id)
  windowIds := h'.windowIds.trans h.windowIds
  retired := h'.retired.trans h.retired
  idle := h'.idle.trans h.idle
  exited := h'.exited.trans h.exited
  resizes id hid := (h'.resizes id hid).elim (h.resizes id) fun hmem => .inr ((h.mem_windows id).1 hmem)
  fullscreenExits id hid := (h'.fullscreenExits id hid).elim (h.fullscreenExits id) fun hmem =>
    .inr ((h.mem_windows id).1 hmem)
  hostResizes id hid := (h'.hostResizes id hid).elim (h.hostResizes id) fun hmem =>
    .inr ((h.mem_windows id).1 hmem)

theorem activeWindows (h : Kept app app') : app'.activeWindows = app.activeWindows := by
  ext id
  simp only [ViewerApp.activeWindows, Finset.mem_sdiff, Finmap.mem_keys, h.retired, h.mem_windows id]

theorem consistent (h : Kept app app') (hc : app.Consistent) : app'.Consistent where
  inverse window id := by
    rw [h.windowIds, hc.inverse, ← hostWindow_eq_some, ← hostWindow_eq_some, h.hostWindow]
  retired id hid := (h.mem_windows id).2 (hc.retired id (h.retired ▸ hid))
  resizes id hid := (h.mem_windows id).2 ((h.resizes id hid).elim (hc.resizes id) fun hmem => hmem)
  fullscreenExits id hid := (h.mem_windows id).2
    ((h.fullscreenExits id hid).elim (hc.fullscreenExits id) fun hmem => hmem)
  hostResizes id hid := (h.mem_windows id).2
    ((h.hostResizes id hid).elim (hc.hostResizes id) fun hmem => hmem)
  idle hidle := by
    rw [h.activeWindows]
    exact hc.idle (h.idle ▸ hidle)

theorem sendInput (app : ViewerApp) (event : InputEvent) : Kept app (app.sendInput event) :=
  ⟨fun _ => rfl, rfl, rfl, rfl, rfl, fun _ => .inl, fun _ => .inl, fun _ => .inl⟩

/-- A window that changes and keeps its name. -/
theorem setView {view view' : ViewerWindow} (hview : app.windows.lookup id = some view)
    (hwindow : view'.window = view.window) : Kept app (app.setView id view') := by
  refine ⟨fun id' => ?_, rfl, rfl, rfl, rfl, fun _ => .inl, fun _ => .inl, fun _ => .inl⟩
  simp only [ViewerApp.hostWindow, ViewerApp.setView]
  by_cases hid : id' = id
  · subst hid
    rw [Finmap.lookup_insert, hview, Option.map_some, Option.map_some, hwindow]
  · rw [Finmap.lookup_insert_of_ne _ hid]

theorem cancelPending (app : ViewerApp) (id : UInt64) : Kept app (app.cancelPending id) := by
  refine ⟨fun _ => rfl, rfl, rfl, rfl, rfl, fun id' h => .inl ?_, fun id' h => .inl ?_,
    fun id' h => .inl ?_⟩ <;>
  · simp only [ViewerApp.cancelPending, Table.contains_remove, Bool.and_eq_true] at h
    exact h.2

theorem queueRemoteResize (env : HostEnv) (hid : id ∈ app.windows) (width height : UInt32) :
    Kept app (app.queueRemoteResize env id width height) := by
  refine ⟨fun _ => rfl, rfl, rfl, rfl, rfl, fun id' h => ?_, fun _ => .inl, fun _ => .inl⟩
  simp only [ViewerApp.queueRemoteResize, Table.contains_insert, Bool.or_eq_true,
    decide_eq_true_eq] at h
  exact h.elim (fun heq => .inr (heq ▸ hid)) .inl

theorem queueHostResizeResync (env : HostEnv) (hid : id ∈ app.windows) :
    Kept app (app.queueHostResizeResync env id) := by
  refine ⟨fun _ => rfl, rfl, rfl, rfl, rfl, fun _ => .inl, fun _ => .inl, fun id' h => ?_⟩
  simp only [ViewerApp.queueHostResizeResync, Table.contains_insert, Bool.or_eq_true,
    decide_eq_true_eq] at h
  exact h.elim (fun heq => .inr (heq ▸ hid)) .inl

theorem queueFullscreenExitResync (env : HostEnv) (hid : id ∈ app.windows) :
    Kept app (app.queueFullscreenExitResync env id) := by
  refine ⟨fun _ => rfl, rfl, rfl, rfl, rfl, fun id' h => .inl ?_, fun id' h => ?_, fun id' h => .inl ?_⟩
  · simp only [ViewerApp.queueFullscreenExitResync, Table.contains_remove, Bool.and_eq_true] at h
    exact h.2
  · simp only [ViewerApp.queueFullscreenExitResync, Table.contains_insert, Bool.or_eq_true,
      decide_eq_true_eq] at h
    exact h.elim (fun heq => .inr (heq ▸ hid)) .inl
  · simp only [ViewerApp.queueFullscreenExitResync, Table.contains_remove, Bool.and_eq_true] at h
    exact h.2

theorem ite {c : Prop} [Decidable c] (h : Kept app app') (h' : Kept app' app'') :
    Kept app (if c then app'' else app') := by
  split
  · exact h.trans h'
  · exact h

theorem foldl {α : Type} {step : ViewerApp → α → ViewerApp} (hstep : ∀ app a, Kept app (step app a))
    (l : List α) (app : ViewerApp) : Kept app (l.foldl step app) := by
  induction l generalizing app with
  | nil => exact .refl app
  | cons a l ih => exact (hstep app a).trans (ih (step app a))

end Kept

theorem mem_of_lookup {view : ViewerWindow} (hview : app.windows.lookup id = some view) :
    id ∈ app.windows :=
  Finmap.mem_of_lookup_eq_some hview

/-! ### Handlers that keep the windows -/

theorem kept_sendRemoteResizeNow (app : ViewerApp) (id : UInt64) (width height : UInt32) :
    Kept app (app.sendRemoteResizeNow id width height) := by
  unfold sendRemoteResizeNow
  cases hview : app.windows.lookup id with
  | none => exact (Kept.sendInput app _).trans (.sendInput _ _)
  | some view =>
    have hset : Kept app (app.setView id { view with remoteResizeInFlight := some (width, height) }) :=
      .setView hview rfl
    exact (hset.trans (.sendInput _ _)).trans (.sendInput _ _)

theorem kept_sendDebounced (app : ViewerApp) (ready : UInt64 × PendingRemoteResize) :
    Kept app (app.sendDebounced ready) :=
  kept_sendRemoteResizeNow app _ _ _

theorem kept_sendFullscreenResync (env : HostEnv) (app : ViewerApp) (id : UInt64) :
    Kept app (sendFullscreenResync env app id) := by
  unfold sendFullscreenResync
  split
  · exact .refl app
  · exact kept_sendRemoteResizeNow app id _ _

theorem kept_resyncHostSize (env : HostEnv) (app : ViewerApp) (id : UInt64) :
    Kept app (resyncHostSize env app id) := by
  unfold resyncHostSize
  cases hview : app.windows.lookup id with
  | none => exact .refl app
  | some view => exact .setView hview (by simp)

theorem kept_handleTitleChanged (env : HostEnv) (app : ViewerApp) (id : UInt64) (title : String) :
    Kept app (app.handleTitleChanged env id title) := by
  unfold handleTitleChanged
  cases hview : app.windows.lookup id with
  | none => exact .refl app
  | some view =>
    refine .setView hview ?_
    dsimp only
    split <;> rfl

theorem kept_handleMoveRequested (env : HostEnv) (app : ViewerApp) (id : UInt64) :
    Kept app (app.handleMoveRequested env id) := by
  unfold handleMoveRequested
  split
  · rename_i hsize
    obtain ⟨view, hview, -⟩ := Option.bind_eq_some_iff.1 hsize
    exact .queueRemoteResize env (mem_of_lookup hview) _ _
  · exact .refl app

theorem kept_handleFullscreenChanged (env : HostEnv) (app : ViewerApp) (id : UInt64) (fullscreen : Bool) :
    Kept app (app.handleFullscreenChanged env id fullscreen) := by
  unfold handleFullscreenChanged
  cases hview : app.windows.lookup id with
  | none =>
    cases fullscreen with
    | true => exact .cancelPending app id
    | false => exact .refl app
  | some view =>
    have hset : Kept app (app.setView id
        { view with pendingProgrammaticResize := none, lastHostFullscreen := fullscreen }) :=
      .setView hview rfl
    cases fullscreen with
    | true => exact hset.trans (.cancelPending _ id)
    | false =>
      exact hset.trans (.queueFullscreenExitResync env ((hset.mem_windows id).2 (mem_of_lookup hview)))

theorem kept_handleFrameTile {tile : FrameTile} (h : app.handleFrameTile env tile = .ok app') :
    Kept app app' := by
  unfold handleFrameTile at h
  cases hview : app.windows.lookup tile.id with
  | none =>
    rw [hview] at h
    cases h
    exact .refl app
  | some view =>
    simp only [hview] at h
    split at h
    · cases h
      exact .refl app
    · cases h
    · rename_i frame displaySizeChanged _
      have hset : Kept app (app.setView tile.id
          (view.tileDrawn (env.host view.window) frame displaySizeChanged)) := .setView hview (by simp)
      have hmem := (hset.mem_windows tile.id).2 (mem_of_lookup hview)
      cases h
      split
      · exact hset.trans (.queueHostResizeResync env hmem)
      · exact hset

theorem kept_handleResized (env : HostEnv) (app : ViewerApp) (id : UInt64) (size : Size) :
    Kept app (app.handleResized env id size) := by
  have hforget : Kept app
      { app with pendingHostResizeResyncs := app.pendingHostResizeResyncs.remove id } := by
    refine ⟨fun _ => rfl, rfl, rfl, rfl, rfl, fun _ => .inl, fun _ => .inl, fun id' h => .inl ?_⟩
    simp only [Table.contains_remove, Bool.and_eq_true] at h
    exact h.2
  unfold handleResized
  dsimp only
  cases hview : app.windows.lookup id with
  | none => exact hforget
  | some view =>
    have hset : Kept app
        (ViewerApp.setView
          { app with pendingHostResizeResyncs := app.pendingHostResizeResyncs.remove id } id
          (view.hostResized (env.host view.window) size).2) :=
      hforget.trans (.setView hview (by simp))
    have hsent := hset.ite (c := (env.host view.window).fullscreen != view.lastHostFullscreen)
      (.sendInput _ (.setFullscreen id (env.host view.window).fullscreen))
    have hcancelled := hsent.ite
      (c := ((env.host view.window).fullscreen != view.lastHostFullscreen) &&
        (env.host view.window).fullscreen) (.cancelPending _ id)
    have hqueued := hcancelled.ite
      (c := ((env.host view.window).fullscreen != view.lastHostFullscreen) &&
        !(env.host view.window).fullscreen)
      (.queueFullscreenExitResync env ((hcancelled.mem_windows id).2 (mem_of_lookup hview)))
    dsimp only
    split
    · exact hqueued.trans (.queueRemoteResize env ((hqueued.mem_windows id).2 (mem_of_lookup hview)) _ _)
    · exact hqueued

/-- The timers: the pending resizes that are due are sent, and when the grace period is over the
retired windows go. -/
theorem flushDueRemoteResizes_cases (app : ViewerApp) (env : HostEnv) :
    ∃ app₁, Kept app app₁ ∧
      (app.flushDueRemoteResizes env = app₁ ∨
        app.emptyWindowsSince.isSome ∧
          app.flushDueRemoteResizes env = { app₁.removeRetiredWindows env with exited := true }) := by
  have hretain : Kept app
      { app with
        pendingFullscreenExitResyncs :=
          app.pendingFullscreenExitResyncs.retain fun _ due => env.now < due
        pendingResizes := app.pendingResizes.retain fun _ resize => env.now < resize.due
        pendingHostResizeResyncs := app.pendingHostResizeResyncs.retain fun _ due => env.now < due } :=
    ⟨fun _ => rfl, rfl, rfl, rfl, rfl, fun _ h => .inl (Table.contains_of_retain h),
      fun _ h => .inl (Table.contains_of_retain h), fun _ h => .inl (Table.contains_of_retain h)⟩
  have hfullscreen := hretain.trans (Kept.foldl (kept_sendFullscreenResync env)
    (dueIds app.pendingFullscreenExitResyncs env.fullscreenExitOrder env.now) _)
  have hresizes := hfullscreen.trans (Kept.foldl kept_sendDebounced
    (env.resizeOrder.filterMap fun id =>
      ((app.pendingResizes.get? id).filter (·.due ≤ env.now)).map fun resize => (id, resize)) _)
  have hhost := hresizes.trans (Kept.foldl (kept_resyncHostSize env)
    (dueIds app.pendingHostResizeResyncs env.hostResizeOrder env.now) _)
  refine ⟨_, hhost, ?_⟩
  have hidle := hhost.idle
  unfold flushDueRemoteResizes
  dsimp only
  split
  · exact .inl rfl
  · rename_i startedAt hsome
    rw [hsome] at hidle
    split
    · exact .inr ⟨by rw [← hidle]; rfl, rfl⟩
    · exact .inl rfl

/-! ### Windows that come and go -/

theorem mem_insert_window {windows : Finmap fun _ : UInt64 => ViewerWindow} {id id' : UInt64}
    {view : ViewerWindow} : id' ∈ windows.insert id view ↔ id' = id ∨ id' ∈ windows :=
  Finmap.mem_insert

theorem mem_erase_window {windows : Finmap fun _ : UInt64 => ViewerWindow} {id id' : UInt64} :
    id' ∈ windows.erase id ↔ id' ≠ id ∧ id' ∈ windows := by
  rw [← Finmap.mem_keys, Finmap.keys_erase, Finset.mem_erase, Finmap.mem_keys]

/-- The names of the host's windows and the windows with these names. -/
theorem Linked.hostWindows (hc : app.Linked) :
    Table.Inverse app.windowIds.get? app.hostWindow := by
  intro window id
  rw [hc.inverse, hostWindow_eq_some]

theorem hostWindow_insert {windows : Finmap fun _ : UInt64 => ViewerWindow} {view : ViewerWindow}
    (id' : UInt64) : ((windows.insert id view).lookup id').map (·.window) =
      if id' = id then some view.window else (windows.lookup id').map (·.window) := by
  by_cases hid : id' = id
  · rw [if_pos hid, hid, Finmap.lookup_insert, Option.map_some]
  · rw [if_neg hid, Finmap.lookup_insert_of_ne _ hid]

theorem hostWindow_erase {windows : Finmap fun _ : UInt64 => ViewerWindow} (id' : UInt64) :
    ((windows.erase id).lookup id').map (·.window) =
      if id' = id then none else (windows.lookup id').map (·.window) := by
  by_cases hid : id' = id
  · rw [if_pos hid, hid, Finmap.lookup_erase, Option.map_none]
  · rw [if_neg hid, Finmap.lookup_erase_ne hid]

/-- A new window, with a name that no other window has. -/
theorem Consistent.createWindow (hc : app.Consistent) (hnew : app.windows.lookup id = none)
    (hfresh : app.windowIds.get? env.created = none) {width height : Nat} {title appId : String}
    (h : { app with emptyWindowsSince := none }.createWindow env id width height title appId =
      .ok app') :
    app'.Consistent ∧ (∀ id', id' ∈ app'.windows ↔ id' = id ∨ id' ∈ app.windows) ∧
      app'.retiredWindowIds = app.retiredWindowIds := by
  unfold ViewerApp.createWindow at h
  simp only [hnew] at h
  obtain ⟨frame, -, h⟩ := Raster.bind_eq_ok.1 h
  obtain ⟨view, hview, h⟩ := Raster.bind_eq_ok.1 h
  cases h
  refine ⟨⟨⟨fun window id' => ?_, fun id' hid => ?_, fun id' hid => ?_, fun id' hid => ?_,
    fun id' hid => ?_⟩, fun hidle => ?_⟩, fun id' => mem_insert_window, rfl⟩
  · rw [← Option.map_eq_some_iff, hostWindow_insert, Table.get?_insert,
      ViewerWindow.resizeToRemoteSize_window hview]
    exact hc.hostWindows.insert hfresh (by rw [ViewerApp.hostWindow, hnew, Option.map_none])
      window id'
  · exact mem_insert_window.2 (.inr (hc.retired id' hid))
  · exact mem_insert_window.2 (.inr (hc.resizes id' hid))
  · exact mem_insert_window.2 (.inr (hc.fullscreenExits id' hid))
  · exact mem_insert_window.2 (.inr (hc.hostResizes id' hid))
  · cases hidle

theorem removeWindow_of_none (hview : app.windows.lookup id = none)
    (keyOrder : UInt64 → List UInt32) :
    app.removeWindow keyOrder id =
      { app with
        pendingResizes := app.pendingResizes.remove id
        pendingFullscreenExitResyncs := app.pendingFullscreenExitResyncs.remove id
        pendingHostResizeResyncs := app.pendingHostResizeResyncs.remove id
        keys := app.keys.releaseWindowGuestKeys id (keyOrder id)
        retiredWindowIds := app.retiredWindowIds.erase id } := by
  simp only [ViewerApp.removeWindow, hview]

theorem removeWindow_of_some {view : ViewerWindow} (hview : app.windows.lookup id = some view)
    (keyOrder : UInt64 → List UInt32) :
    app.removeWindow keyOrder id =
      { app with
        windows := app.windows.erase id
        windowIds := app.windowIds.remove view.window
        pendingResizes := app.pendingResizes.remove id
        pendingFullscreenExitResyncs := app.pendingFullscreenExitResyncs.remove id
        pendingHostResizeResyncs := app.pendingHostResizeResyncs.remove id
        keys := app.keys.releaseWindowGuestKeys id (keyOrder id)
        retiredWindowIds := app.retiredWindowIds.erase id } := by
  simp only [ViewerApp.removeWindow, hview]

/-- What is left after a window was removed. -/
theorem Linked.removeWindow (hc : app.Linked) (keyOrder : UInt64 → List UInt32) (id : UInt64) :
    (app.removeWindow keyOrder id).Linked ∧
      (∀ id', id' ∈ (app.removeWindow keyOrder id).windows ↔ id' ≠ id ∧ id' ∈ app.windows) ∧
      (app.removeWindow keyOrder id).retiredWindowIds = app.retiredWindowIds.erase id ∧
      (app.removeWindow keyOrder id).emptyWindowsSince = app.emptyWindowsSince := by
  have hkeep : ∀ {ν : Type} {pending : Table UInt64 ν} {id'}, (pending.remove id).contains id' →
      id' ≠ id ∧ pending.contains id' := by
    intro ν pending id' h
    simpa using h
  cases hview : app.windows.lookup id with
  | none =>
    rw [removeWindow_of_none hview]
    have hne : ∀ id', id' ∈ app.windows → id' ≠ id := by
      rintro id' hmem rfl
      exact Finmap.lookup_eq_none.1 hview hmem
    refine ⟨⟨hc.inverse, fun id' hid => hc.retired id' (Finset.mem_of_mem_erase hid),
      fun id' hid => hc.resizes id' (hkeep hid).2, fun id' hid => hc.fullscreenExits id' (hkeep hid).2,
      fun id' hid => hc.hostResizes id' (hkeep hid).2⟩, fun id' => ?_, rfl, rfl⟩
    exact ⟨fun hmem => ⟨hne id' hmem, hmem⟩, fun hmem => hmem.2⟩
  | some view =>
    rw [removeWindow_of_some hview]
    refine ⟨⟨fun window id' => ?_, fun id' hid => ?_, fun id' hid => ?_, fun id' hid => ?_,
      fun id' hid => ?_⟩, fun id' => mem_erase_window, rfl, rfl⟩
    · rw [← Option.map_eq_some_iff, hostWindow_erase, Table.get?_remove]
      exact hc.hostWindows.remove ((hc.inverse view.window id).2 ⟨view, hview, rfl⟩) window id'
    · exact mem_erase_window.2 ⟨Finset.ne_of_mem_erase hid,
        hc.retired id' (Finset.mem_of_mem_erase hid)⟩
    · exact mem_erase_window.2 ⟨(hkeep hid).1, hc.resizes id' (hkeep hid).2⟩
    · exact mem_erase_window.2 ⟨(hkeep hid).1, hc.fullscreenExits id' (hkeep hid).2⟩
    · exact mem_erase_window.2 ⟨(hkeep hid).1, hc.hostResizes id' (hkeep hid).2⟩

theorem Linked.removeWindows (keyOrder : UInt64 → List UInt32) (ids : List UInt64) :
    ∀ {app : ViewerApp}, app.Linked →
      (ids.foldl (fun app id => app.removeWindow keyOrder id) app).Linked ∧
      (∀ id', id' ∈ (ids.foldl (fun app id => app.removeWindow keyOrder id) app).windows ↔
        id' ∉ ids ∧ id' ∈ app.windows) := by
  induction ids with
  | nil => intro app hc; exact ⟨hc, fun id' => by simp⟩
  | cons id ids ih =>
    intro app hc
    obtain ⟨hlinked, hmem, -, -⟩ := hc.removeWindow keyOrder id
    obtain ⟨hlinked', hmem'⟩ := ih hlinked
    refine ⟨hlinked', fun id' => ?_⟩
    rw [List.foldl_cons, hmem' id', hmem id', List.mem_cons, not_or]
    tauto

theorem Consistent.removeWindow (hc : app.Consistent) (keyOrder : UInt64 → List UInt32) (id : UInt64) :
    (app.removeWindow keyOrder id).Consistent := by
  obtain ⟨hlinked, hmem, hretired, hidle⟩ := hc.toLinked.removeWindow keyOrder id
  refine ⟨hlinked, fun hsome => ?_⟩
  have hempty := hc.idle (hidle ▸ hsome)
  rw [Finset.eq_empty_iff_forall_notMem] at hempty ⊢
  intro id' hid'
  simp only [activeWindows, Finset.mem_sdiff, Finmap.mem_keys, hmem, hretired, Finset.mem_erase,
    not_and] at hid' hempty
  exact hempty id' hid'.1.2 (by_contra fun hnot => hid'.2 hid'.1.1 (by_contra fun h => hnot h))

/-- The window that is retired stays in the tables, with nothing pending. -/
theorem Consistent.retireLastWindow (hc : app.Consistent) (keyOrder : UInt64 → List UInt32)
    (hid : id ∈ app.windows) (hlast : app.activeWindows ⊆ {id}) (now : Nat) :
    Consistent { app.retireLastWindow keyOrder id with emptyWindowsSince := some now } ∧
      ∀ id', id' ∈ (app.retireLastWindow keyOrder id).windows ↔ id' ∈ app.windows := by
  obtain ⟨view, hview⟩ := Finmap.mem_iff.1 hid
  have hset : Kept app (app.setView id view.hide) := .setView hview rfl
  have hkeep : ∀ {ν : Type} {pending : Table UInt64 ν} {id'}, (pending.remove id).contains id' →
      pending.contains id' := by
    intro ν pending id' h
    simp only [Table.contains_remove, Bool.and_eq_true] at h
    exact h.2
  have hlinked := (hset.consistent hc).toLinked
  simp only [ViewerApp.retireLastWindow, hview]
  refine ⟨?_, hset.mem_windows⟩
  refine ⟨⟨hlinked.inverse, fun id' hid' => ?_, fun id' h => hlinked.resizes id' (hkeep h),
    fun id' h => hlinked.fullscreenExits id' (hkeep h),
    fun id' h => hlinked.hostResizes id' (hkeep h)⟩, fun _ => ?_⟩
  · obtain rfl | hid' := Finset.mem_insert.1 hid'
    · exact mem_insert_window.2 (.inl rfl)
    · exact hlinked.retired id' hid'
  · rw [Finset.eq_empty_iff_forall_notMem]
    intro id' hid'
    simp only [activeWindows, Finset.mem_sdiff, Finmap.mem_keys, mem_insert_window,
      Finset.mem_insert, not_or] at hid'
    obtain ⟨hmem, hne, hretired⟩ := hid'
    have hactive : id' ∈ app.activeWindows := by
      rw [activeWindows, Finset.mem_sdiff, Finmap.mem_keys]
      exact ⟨hmem.resolve_left hne, hretired⟩
    exact hne (Finset.mem_singleton.1 (hlast hactive))

/-- When the grace period ends the windows that were retired are all there are. -/
theorem Consistent.removeRetiredWindows (hc : app.Consistent)
    (horder : ∀ id, id ∈ env.retiredOrder ↔ id ∈ app.retiredWindowIds)
    (hidle : app.activeWindows = ∅) :
    Consistent { app.removeRetiredWindows env with exited := true } ∧
      (∀ id, id ∉ (app.removeRetiredWindows env).windows) ∧
      ∀ id, id ∉ (app.removeRetiredWindows env).retiredWindowIds := by
  have hdrained : Linked { app with retiredWindowIds := ∅ } :=
    { hc.toLinked with retired := fun id hid => absurd hid (Finset.notMem_empty id) }
  obtain ⟨hlinked, hmem⟩ := hdrained.removeWindows env.keyOrder env.retiredOrder
  rw [Finset.eq_empty_iff_forall_notMem] at hidle
  have hgone : ∀ id, id ∉ (app.removeRetiredWindows env).windows := by
    intro id hid
    obtain ⟨hnot, hin⟩ := (hmem id).1 hid
    simp only [activeWindows, Finset.mem_sdiff, Finmap.mem_keys, not_and, not_not] at hidle
    exact hnot ((horder id).2 (hidle id hin))
  refine ⟨⟨⟨hlinked.inverse, hlinked.retired, hlinked.resizes, hlinked.fullscreenExits,
    hlinked.hostResizes⟩, fun _ => ?_⟩, hgone, fun id hid => hgone id (hlinked.retired id hid)⟩
  rw [Finset.eq_empty_iff_forall_notMem]
  intro id hid
  rw [activeWindows, Finset.mem_sdiff, Finmap.mem_keys] at hid
  exact hgone id hid.1

/-! ## Runs -/

/-- The guest's window was announced. -/
def Announced (past : List HostEvent) (id : UInt64) : Prop :=
  ∃ geom title appId, .windowEvent (.created id geom title appId) ∈ past

/-- The order of the guest's events: a window is created once and before anything else is said about
it, and destroyed at most once. -/
def InOrder (past : List HostEvent) : HostEvent → Prop
  | .windowEvent (.created id _ _ _) => ∀ event, .windowEvent event ∈ past → event.id ≠ id
  | .windowEvent (.destroyed id) => Announced past id ∧ .windowEvent (.destroyed id) ∉ past
  | .windowEvent event => Announced past event.id
  | _ => True

/-- What the host promises: a new window has a name of its own, and a set is drained completely. -/
structure Promises (app : ViewerApp) (env : HostEnv) : Prop where
  fresh : app.windowIds.get? env.created = none
  drained : ∀ id, id ∈ env.retiredOrder ↔ id ∈ app.retiredWindowIds

inductive Run : List HostEvent → ViewerApp → Prop where
  | start : Run [] .new
  | step {past : List HostEvent} {app app' : ViewerApp} {env : HostEnv} {event : HostEvent} :
      Run past app → InOrder past event → app.Promises env → app.handle env event = .ok app' →
      Run (past ++ [event]) app'

/-- The tables fit each other, and what was said so far. -/
structure Tracks (past : List HostEvent) (app : ViewerApp) : Prop where
  consistent : app.Consistent
  announced : ∀ id ∈ app.windows, Announced past id
  destroyed : ∀ id ∈ app.retiredWindowIds, .windowEvent (.destroyed id) ∈ past

variable {past : List HostEvent}

theorem Announced.append (h : Announced past id) (event : HostEvent) :
    Announced (past ++ [event]) id := by
  obtain ⟨geom, title, appId, hmem⟩ := h
  exact ⟨geom, title, appId, List.mem_append_left _ hmem⟩

theorem Tracks.kept (h : Tracks past app) (hkept : Kept app app') (event : HostEvent) :
    Tracks (past ++ [event]) app' where
  consistent := hkept.consistent h.consistent
  announced id hid := (h.announced id ((hkept.mem_windows id).1 hid)).append event
  destroyed id hid := List.mem_append_left _ (h.destroyed id (hkept.retired ▸ hid))

theorem Tracks.created (h : Tracks past app) (hfresh : app.windowIds.get? env.created = none)
    {geom : WindowGeometry} {title appId : String}
    (horder : ∀ event, .windowEvent event ∈ past → event.id ≠ id)
    (hhandle : app.handleRemoteWindowEvent env (.created id geom title appId) = .ok app') :
    Tracks (past ++ [.windowEvent (.created id geom title appId)]) app' := by
  have hnew : app.windows.lookup id = none := by
    refine Finmap.lookup_eq_none.2 fun hmem => ?_
    obtain ⟨geom', title', appId', hcreated⟩ := h.announced id hmem
    exact horder _ hcreated rfl
  obtain ⟨hconsistent, hmem, hretired⟩ := h.consistent.createWindow hnew hfresh hhandle
  refine ⟨hconsistent, fun id' hid' => ?_, fun id' hid' => ?_⟩
  · obtain rfl | hid' := (hmem id').1 hid'
    · exact ⟨geom, title, appId, List.mem_append_right _ List.mem_cons_self⟩
    · exact (h.announced id' hid').append _
  · have hold : id' ∈ app.retiredWindowIds := by
      rw [← hretired]
      exact hid'
    exact List.mem_append_left _ (h.destroyed id' hold)

theorem Tracks.destroyedEvent (h : Tracks past app)
    (honce : .windowEvent (.destroyed id) ∉ past)
    (hhandle : app.handleRemoteWindowEvent env (.destroyed id) = .ok app') :
    Tracks (past ++ [.windowEvent (.destroyed id)]) app' := by
  have hlive : id ∉ app.retiredWindowIds := fun hid => honce (h.destroyed id hid)
  cases hhandle
  split
  · rename_i hlast
    obtain ⟨hcount, hid⟩ := hlast
    have hactive : id ∈ app.activeWindows := by
      rw [activeWindows, Finset.mem_sdiff, Finmap.mem_keys]
      exact ⟨hid, hlive⟩
    have honly : app.activeWindows ⊆ {id} := by
      intro id' hid'
      exact Finset.mem_singleton.2 (Finset.card_le_one.1 hcount id' hid' id hactive)
    obtain ⟨hconsistent, hmem⟩ := h.consistent.retireLastWindow env.keyOrder hid honly env.now
    refine ⟨hconsistent, fun id' hid' => (h.announced id' ((hmem id').1 hid')).append _,
      fun id' hid' => ?_⟩
    obtain rfl | hid' := Finset.mem_insert.1 hid'
    · exact List.mem_append_right _ List.mem_cons_self
    · exact List.mem_append_left _ (h.destroyed id' hid')
  · obtain ⟨-, hmem, hretired, -⟩ := h.consistent.toLinked.removeWindow env.keyOrder id
    refine ⟨h.consistent.removeWindow env.keyOrder id, fun id' hid' => ?_, fun id' hid' => ?_⟩
    · exact (h.announced id' ((hmem id').1 hid').2).append _
    · rw [hretired] at hid'
      exact List.mem_append_left _ (h.destroyed id' (Finset.mem_of_mem_erase hid'))

theorem Tracks.windowEvent (h : Tracks past app) (hpromises : app.Promises env) (event : WindowEvent)
    (horder : InOrder past (.windowEvent event))
    (hhandle : app.handleRemoteWindowEvent env event = .ok app') :
    Tracks (past ++ [.windowEvent event]) app' := by
  cases event with
  | created id geom title appId => exact h.created hpromises.fresh horder hhandle
  | configured id geom =>
    refine h.kept ?_ _
    simp only [handleRemoteWindowEvent] at hhandle
    split at hhandle
    · rename_i view hview
      obtain ⟨view', hresized, hhandle⟩ := Raster.bind_eq_ok.1 hhandle
      cases hhandle
      have hwindow := ViewerWindow.resizeToRemoteSize_window hresized
      exact .setView hview hwindow
    · cases hhandle
      exact .refl app
  | destroyed id => exact h.destroyedEvent horder.2 hhandle
  | titleChanged id title =>
    cases hhandle
    exact h.kept (kept_handleTitleChanged env app id title) _
  | minimized id =>
    cases hhandle
    exact h.kept (.refl app) _
  | moveRequested id =>
    cases hhandle
    exact h.kept (kept_handleMoveRequested env app id) _
  | fullscreenChanged id fullscreen =>
    cases hhandle
    exact h.kept (kept_handleFullscreenChanged env app id fullscreen) _

theorem Tracks.aboutToWait (h : Tracks past app) (hpromises : app.Promises env) :
    Tracks (past ++ [.aboutToWait]) (app.flushDueRemoteResizes env) := by
  obtain ⟨app₁, hkept, heq | ⟨hidle, heq⟩⟩ := flushDueRemoteResizes_cases app env
  · rw [heq]
    exact h.kept hkept _
  · have hdrained : ∀ id, id ∈ env.retiredOrder ↔ id ∈ app₁.retiredWindowIds := by
      rw [hkept.retired]
      exact hpromises.drained
    have hc := hkept.consistent h.consistent
    have hactive : app₁.activeWindows = ∅ := hkept.activeWindows.trans (h.consistent.idle hidle)
    obtain ⟨hconsistent, hmem, hretired⟩ := hc.removeRetiredWindows hdrained hactive
    rw [heq]
    refine ⟨hconsistent, fun id hid => absurd hid (hmem id), fun id hid => absurd hid (hretired id)⟩

theorem Tracks.step (h : Tracks past app) {event : HostEvent} (hpromises : app.Promises env)
    (horder : InOrder past event) (hhandle : app.handle env event = .ok app') :
    Tracks (past ++ [event]) app' := by
  cases event with
  | windowEvent event => exact h.windowEvent hpromises event horder hhandle
  | frameTile tile => exact h.kept (kept_handleFrameTile hhandle) _
  | resized window size =>
    simp only [handle] at hhandle
    split at hhandle
    · cases hhandle
      exact h.kept (.refl app) _
    · cases hhandle
      exact h.kept (kept_handleResized env app _ size) _
  | redrawRequested window =>
    simp only [handle] at hhandle
    split at hhandle
    · cases hhandle
      exact h.kept (.refl app) _
    · rename_i id view hfound
      obtain ⟨id', -, hview⟩ := Option.bind_eq_some_iff.1 hfound
      obtain ⟨view', hview, heq⟩ := Option.map_eq_some_iff.1 hview
      cases heq
      cases hhandle
      refine h.kept ?_ _
      split
      · exact .setView hview (by simp)
      · exact .refl app
  | aboutToWait =>
    cases hhandle
    exact h.aboutToWait hpromises

theorem Tracks.run (h : Run past app) : Tracks past app := by
  induction h with
  | start =>
    exact ⟨consistent_new, fun id hid => absurd hid Finmap.notMem_empty,
      fun id hid => absurd hid (Finset.notMem_empty id)⟩
  | step _ horder hpromises hhandle ih => exact ih.step hpromises horder hhandle

/-- **The tables of the viewer.** In every run in which each window of the guest is created before
anything else is said about it and destroyed at most once, the tables fit each other and the timer
runs only while no window is active. So when the viewer exits because the grace period is over, it
has no active window. -/
theorem run_consistent (h : Run past app) :
    app.Consistent ∧
      ∀ env, app.exited = false → (app.flushDueRemoteResizes env).exited = true →
        app.activeWindowCount = 0 := by
  have hc := (Tracks.run h).consistent
  refine ⟨hc, fun env hnot hexit => ?_⟩
  obtain ⟨app₁, hkept, heq | ⟨hidle, -⟩⟩ := flushDueRemoteResizes_cases app env
  · rw [heq, hkept.exited, hnot] at hexit
    cases hexit
  · rw [activeWindowCount, hc.idle hidle]
    rfl

/-- A host whose windows stay as they are, two seconds after the start. -/
def quietEnv (created : WindowId) : HostEnv :=
  { now := 2000
    host := fun _ =>
      { fullscreen := false, resizeRequest := none, resizeResyncNeeded := false
        scaledInnerSize := (1, 1), initialAdoptCap := none, presents := true, tileRemoteResize := none }
    created, keyOrder := fun _ => [], retiredOrder := [], fullscreenExitOrder := []
    resizeOrder := [], hostResizeOrder := [] }

/-- The only window is created and destroyed, and the timer starts. -/
theorem run_consistent_single :
    ∃ app, Run [.windowEvent (.created 1 ⟨0, 0, 1, 1⟩ "" ""), .windowEvent (.destroyed 1)] app ∧
      app.emptyWindowsSince = some 2000 ∧ app.Consistent ∧
      ∀ env, app.exited = false → (app.flushDueRemoteResizes env).exited = true →
        app.activeWindowCount = 0 := by
  obtain ⟨app, happ⟩ : ∃ app, new.handle (quietEnv ⟨1⟩)
      (.windowEvent (.created 1 ⟨0, 0, 1, 1⟩ "" "")) = .ok app := ⟨_, rfl⟩
  have hcreated : Run ([] ++ [.windowEvent (.created 1 ⟨0, 0, 1, 1⟩ "" "")]) app :=
    .step .start (fun event hmem => absurd hmem List.not_mem_nil)
      ⟨rfl, fun id => by simp [quietEnv, new]⟩ happ
  have hpromises : app.Promises (quietEnv ⟨2⟩) := by
    cases happ
    exact ⟨by decide, fun id => by simp [quietEnv, new]⟩
  have horder : InOrder [.windowEvent (.created 1 ⟨0, 0, 1, 1⟩ "" "")]
      (.windowEvent (.destroyed 1)) :=
    ⟨⟨⟨0, 0, 1, 1⟩, "", "", List.mem_cons_self⟩, by simp⟩
  have hdestroyed := hcreated.step horder hpromises rfl
  refine ⟨_, hdestroyed, ?_, run_consistent hdestroyed⟩
  cases happ
  decide

/-! ## The keys

Runs of the operations on the ledger of keys, with the windows coming and going. -/

inductive KeyOp where
  | trackedKey (id : UInt64) (keycode : UInt32) (state : ElementState)
  | trackedModifierKey (id : UInt64) (keycode : UInt32) (state : ElementState)
  | releaseWindowKeys (id : UInt64) (iter : List UInt32)
  | releaseIfPressed (keycode : UInt32)
  | removeWindow (id : UInt64) (iter : List UInt32)
  | retireLastWindow (id : UInt64) (iter : List UInt32)

def applyKeyOp (app : ViewerApp) : KeyOp → ViewerApp
  | .trackedKey id keycode state =>
    { app with keys := app.keys.sendTrackedGuestKey id keycode state }
  | .trackedModifierKey id keycode state =>
    { app with keys := app.keys.sendTrackedGuestModifierKey id keycode state }
  | .releaseWindowKeys id iter => { app with keys := app.keys.releaseWindowGuestKeys id iter }
  | .releaseIfPressed keycode => { app with keys := (app.keys.releaseGuestKeyIfPressed keycode).2 }
  | .removeWindow id iter => app.removeWindow (fun _ => iter) id
  | .retireLastWindow id iter => app.retireLastWindow (fun _ => iter) id

/-- How the viewer uses the operations: modifiers are counted, and a hash map is walked completely. -/
def UsesKeys (app : ViewerApp) : KeyOp → Prop
  | .trackedKey _ keycode _ => keycode ∉ guestModifierKeycodes
  | .trackedModifierKey _ keycode _ => keycode ∈ guestModifierKeycodes
  | .releaseWindowKeys _ iter => app.keys.Walks iter
  | .releaseIfPressed _ => True
  | .removeWindow _ iter => app.keys.Walks iter
  | .retireLastWindow _ iter => app.keys.Walks iter

inductive KeyRun : ViewerApp → Prop where
  | start {app : ViewerApp} : app.keys = .empty → KeyRun app
  | step {app : ViewerApp} {op : KeyOp} : KeyRun app → app.UsesKeys op → KeyRun (app.applyKeyOp op)

theorem removeWindow_keys (app : ViewerApp) (keyOrder : UInt64 → List UInt32) (id : UInt64) :
    (app.removeWindow keyOrder id).keys = app.keys.releaseWindowGuestKeys id (keyOrder id) := by
  cases hview : app.windows.lookup id with
  | none => rw [removeWindow_of_none hview]
  | some view => rw [removeWindow_of_some hview]

theorem keys_of_run (h : KeyRun app) : app.keys.Balanced ∧ app.keys.ModifiersCounted := by
  induction h with
  | start hempty =>
    rw [hempty]
    exact ⟨KeyLedger.balanced_empty, KeyLedger.modifiersCounted_empty⟩
  | @step app op _ huses ih =>
    obtain ⟨hbalanced, hcounted⟩ := ih
    cases op with
    | trackedKey id keycode state =>
      exact ⟨hbalanced.sendTrackedGuestKey id keycode state,
        hcounted.sendTrackedGuestKey huses id state⟩
    | trackedModifierKey id keycode state =>
      exact ⟨hbalanced.sendTrackedGuestModifierKey id keycode state,
        hcounted.sendTrackedGuestModifierKey huses id state⟩
    | releaseWindowKeys id iter =>
      exact ⟨hbalanced.releaseWindowGuestKeys huses id, hcounted.releaseWindowGuestKeys huses id⟩
    | releaseIfPressed keycode =>
      exact ⟨hbalanced.releaseGuestKeyIfPressed keycode, hcounted.releaseGuestKeyIfPressed keycode⟩
    | removeWindow id iter =>
      simp only [applyKeyOp, removeWindow_keys]
      exact ⟨hbalanced.releaseWindowGuestKeys huses id, hcounted.releaseWindowGuestKeys huses id⟩
    | retireLastWindow id iter =>
      exact ⟨hbalanced.releaseWindowGuestKeys huses id, hcounted.releaseWindowGuestKeys huses id⟩

/-- **The ledger of keys.** In every run of its operations the held keys are those whose last event
was a press, the modifiers among them are counted, every release ended the last press of its key for
the window of that press, and the release of a window's keys leaves none held for it. -/
theorem key_ledger (h : KeyRun app) :
    (∀ keycode, (∃ id, KeyLedger.lastKey app.keys.sent keycode = some (id, .pressed)) ↔
      app.keys.pressedGuestKeys.contains keycode) ∧
    (∀ keycode ∈ guestModifierKeycodes,
      (app.keys.pressedGuestModifierCounts.contains keycode ↔
        app.keys.pressedGuestKeys.contains keycode) ∧
      ∀ count, app.keys.pressedGuestModifierCounts.get? keycode = some count → 1 ≤ count) ∧
    (∀ before id keycode after, app.keys.sent = before ++ .key id keycode .released :: after →
      KeyLedger.lastKey before keycode = some (id, .pressed)) ∧
    ∀ id iter, app.keys.Walks iter → ∀ keycode,
      (app.keys.releaseWindowGuestKeys id iter).pressedGuestKeys.get? keycode ≠ some id := by
  obtain ⟨hbalanced, hcounted⟩ := keys_of_run h
  refine ⟨fun keycode => ?_, fun keycode hkey => ⟨hcounted.counted keycode hkey,
    hcounted.positive keycode⟩, hbalanced.matched, fun id iter hiter keycode hheld => ?_⟩
  · simp only [hbalanced.held, Table.contains_iff]
  · rw [(KeyLedger.get?_releaseWindowGuestKeys hiter id keycode).1] at hheld
    split at hheld
    · cases hheld
    · rename_i hnot
      exact hnot hheld

/-- The left Command and the left Control key both hold the guest's Control when their window goes. -/
theorem key_ledger_two_holders :
    ∃ app, KeyRun app ∧ app.keys.pressedGuestModifierCounts.get? keyLeftctrl = some 2 ∧
      ∀ keycode, (app.keys.releaseWindowGuestKeys 1 [keyLeftctrl]).pressedGuestKeys.get? keycode ≠
        some 1 := by
  have hstart : KeyRun new := .start rfl
  have hleft : KeyRun (new.applyKeyOp (.trackedModifierKey 1 keyLeftctrl .pressed)) :=
    hstart.step (show keyLeftctrl ∈ guestModifierKeycodes by decide)
  have hboth : KeyRun ((new.applyKeyOp (.trackedModifierKey 1 keyLeftctrl .pressed)).applyKeyOp
      (.trackedModifierKey 1 keyLeftctrl .pressed)) :=
    hleft.step (show keyLeftctrl ∈ guestModifierKeycodes by decide)
  refine ⟨_, hboth, by decide, (key_ledger hboth).2.2.2 1 [keyLeftctrl] ⟨by simp, fun keycode => ?_⟩⟩
  have hone : KeyLedger.pressedGuestKeys ((new.applyKeyOp (.trackedModifierKey 1 keyLeftctrl
      .pressed)).applyKeyOp (.trackedModifierKey 1 keyLeftctrl .pressed)).keys =
      Table.insert .empty keyLeftctrl 1 := rfl
  rw [hone]
  simp [Table.contains]

end ViewerApp
end VBox
