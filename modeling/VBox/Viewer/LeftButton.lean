import VBox.Viewer.Gestures

/-!
# Viewer.LeftButton

The left button of the pointer, over runs. The methods of `Viewer.Gestures` are followed by what the
viewer does with the button, its `PointerStatus`: every step acts on it in a simple way.

* `gestures_end_iff`: when a gesture of the viewer ends with the release of the button, and what is left
  of one that does not.
* `left_button_answered`: what the guest is told of the button.
* `motion_moves_host_iff`: when the window of the host follows the pointer.
-/

namespace VBox

/-! ## The status of a gesture -/

inductive MovePhase where
  | resting | pressed | dragging
  deriving DecidableEq

def MoveState.phase {P : Type} : MoveState P → MovePhase
  | .idle => .resting
  | .pressed _ => .pressed
  | .released _ _ => .resting
  | .dragging _ => .dragging

/-- What the viewer is doing with the left button. -/
structure PointerStatus where
  phase : MovePhase
  resizing : Bool
  suppressed : Bool
  deriving DecidableEq

/-- Who takes a press of the left button. -/
inductive Claim where
  | titlebar | move | resize | guest
  deriving DecidableEq

namespace PointerStatus

def rest : PointerStatus := { phase := .resting, resizing := false, suppressed := false }

/-- The window is resized, and no move goes on. -/
def resizes : PointerStatus := { rest with resizing := true }

/-- A press that makes a move possible if the viewer knows where the window and the cursor are. -/
def press (s : PointerStatus) (claim : Claim) (tracks : Bool) : PointerStatus :=
  let remembered :=
    { s with phase := if tracks && s.phase ≠ .dragging then .pressed else s.phase }
  match claim with
  | .titlebar => { s with suppressed := true }
  | .move => { s with phase := .dragging }
  | .resize => { remembered with resizing := true }
  | .guest => remembered

def request (s : PointerStatus) : PointerStatus :=
  { s with phase := if s.phase = .pressed then .dragging else s.phase }

theorem with_phase (s : PointerStatus) {phase : MovePhase} (h : s.phase = phase) :
    { s with phase } = s := by
  subst h
  rfl

/-- Whether a release goes to the guest. -/
def sends (s : PointerStatus) : Bool := !s.suppressed && s.phase ≠ .dragging && !s.resizing

def release (s : PointerStatus) : PointerStatus :=
  if s.suppressed then { s with suppressed := false }
  else if s.phase = .dragging then { s with phase := .resting }
  else rest

end PointerStatus

namespace PointerView

variable {P : Type} (config : PointerConfig) (env : PointerEnv P) (view : PointerView P)

def status : PointerStatus :=
  { phase := view.moveState.phase
    resizing := view.activeResize.isSome
    suppressed := view.suppressNextLeftRelease }

/-- The viewer knows where the window and the cursor are. -/
def tracks : Bool := (view.moveDragFromCurrentCursor env).isSome

/-- Who takes a press that is not on the titlebar. -/
def claimBelow : Claim :=
  if !view.tracks env then .guest
  else if hostMoveModifierActive env.modifiers then .move
  else if view.hoverResizeDirection.isSome then .resize
  else .guest

def claim : Claim :=
  if !config.hostChromeEnabled && (view.takeTitlebarToggleOnLeftPress env).1 then .titlebar
  else view.claimBelow env

/-! ### The methods -/

@[simp] theorem status_tell (call : HostCall) : (view.tell call).status = view.status := rfl

@[simp] theorem status_setLastWindowCursor (position : P) :
    (view.setLastWindowCursor position).status = view.status := rfl

@[simp] theorem status_cacheFrameCursor (position : P) :
    (view.cacheFrameCursor env position).status = view.status := rfl

@[simp] theorem status_syncCursor : (view.syncCursorFromWindowPosition env).status = view.status := by
  unfold syncCursorFromWindowPosition
  split <;> rfl

@[simp] theorem status_updateResizeCursor (position : P) :
    (view.updateResizeCursor env position).status = view.status := by
  unfold updateResizeCursor
  split <;> rfl

@[simp] theorem status_clearResizeCursor : view.clearResizeCursor.status = view.status := by
  unfold clearResizeCursor
  split <;> rfl

@[simp] theorem status_snapToCursor (tile : P → ScreenPosition → Option EdgeSnapRect) :
    (view.snapToCursor tile env).2.status = view.status := by
  unfold snapToCursor
  split
  · split <;> rfl
  · rfl

@[simp] theorem status_snap : (view.snap config env).status = view.status := by
  simp only [snap]
  split <;> simp

@[simp] theorem status_settleCursor : (view.settleCursor env).status = view.status := by
  unfold settleCursor
  split
  · rw [status_updateResizeCursor]
    rfl
  · simp

@[simp] theorem status_setMoveState (moveState : MoveState P) :
    (view.setMoveState moveState).status = { view.status with phase := moveState.phase } := rfl

theorem updateManualMove_eq (position : P) :
    (view.updateManualMove env position).1 = decide (view.status.phase = .dragging) ∧
      (view.updateManualMove env position).2.status = view.status := by
  cases h : view.moveState <;> simp [updateManualMove, status, tell, MoveState.phase, h]

theorem updateManualResize_eq (position : P) :
    (view.updateManualResize env position).1 = view.status.resizing ∧
      (view.updateManualResize env position).2.status = view.status := by
  unfold updateManualResize
  split
  · rename_i drag h
    refine ⟨by simp [status, h], ?_⟩
    dsimp only
    split <;> rfl
  · rename_i h
    exact ⟨by simp [status, h], rfl⟩

@[simp] theorem status_moveToLastCursor : (view.moveToLastCursor env).status = view.status := by
  unfold moveToLastCursor
  split
  · exact (view.updateManualMove_eq env _).2
  · rfl

@[simp] theorem status_startRequestedMove (drag : MoveDrag P) (released : Bool) :
    (view.startRequestedMove config env drag released).status =
      { view.status with phase := if released then .resting else .dragging } := by
  cases released <;> simp [startRequestedMove, MoveState.phase]

theorem status_phase {moveState : MoveState P} (h : view.moveState = moveState) :
    view.status.phase = moveState.phase := congrArg MoveState.phase h

theorem status_beginRequestedMove :
    (view.beginRequestedMove config env).status = view.status.request := by
  unfold beginRequestedMove
  split
  · rename_i h
    have hphase := view.status_phase h
    exact (PointerStatus.with_phase _ (by simp [hphase, MoveState.phase])).symm
  · rename_i h
    simp [PointerStatus.request, view.status_phase h, MoveState.phase]
  · rename_i h
    split <;> simp [PointerStatus.request, view.status_phase h, MoveState.phase]
  · rename_i h
    simp [PointerStatus.request, view.status_phase h, MoveState.phase]

theorem finishManualMove_eq :
    (view.finishManualMove config env).1 = decide (view.status.phase = .dragging) ∧
      (view.finishManualMove config env).2.status = { view.status with phase := .resting } := by
  unfold finishManualMove
  split
  · rename_i h
    simp [view.status_phase h, MoveState.phase]
  · rename_i h
    cases config.macos <;> simp [view.status_phase h, MoveState.phase]
  · rename_i h
    have hrest := view.status_phase h
    exact ⟨by simp [hrest, MoveState.phase], (PointerStatus.with_phase _ hrest).symm⟩
  · rename_i h
    have hrest := view.status_phase h
    exact ⟨by simp [hrest, MoveState.phase], (PointerStatus.with_phase _ hrest).symm⟩

theorem status_clearPendingMove (h : view.status.phase = .resting) :
    view.clearPendingMove.status = view.status := by
  unfold clearPendingMove
  split
  · rfl
  · rw [status_setMoveState, MoveState.phase, ← h]

theorem finishManualResize_eq (h : view.status.phase = .resting) :
    (view.finishManualResize env).1 = view.status.resizing ∧
      (view.finishManualResize env).2.status = { view.status with resizing := false } := by
  unfold finishManualResize
  split
  · rename_i hresize
    refine ⟨by simp [status, hresize], ?_⟩
    dsimp only
    rw [status_settleCursor, status_clearPendingMove]
    · rfl
    · exact h
  · rename_i hresize
    exact ⟨by simp [status, hresize], by simp [status, hresize]⟩

@[simp] theorem moveDrag_setMoveState (moveState : MoveState P) :
    (view.setMoveState moveState).moveDragFromCurrentCursor env = view.moveDragFromCurrentCursor env := rfl

theorem isDragging_eq : view.moveState.isDragging = decide (view.status.phase = .dragging) := by
  cases h : view.moveState <;> simp [status, MoveState.isDragging, MoveState.phase, h]

theorem rememberLeftPress_eq :
    (view.rememberLeftPress env).status = { view.status with
      phase := if view.tracks env && view.status.phase ≠ .dragging then .pressed
        else view.status.phase } ∧
    (view.rememberLeftPress env).tracks env = view.tracks env ∧
    (view.rememberLeftPress env).hoverResizeDirection = view.hoverResizeDirection := by
  unfold rememberLeftPress
  rw [isDragging_eq]
  split
  · rename_i h
    have hphase := of_decide_eq_true h
    exact ⟨(PointerStatus.with_phase _ (by simp [hphase])).symm, rfl, rfl⟩
  · rename_i h
    have hphase : view.status.phase ≠ .dragging := fun h' => h (decide_eq_true h')
    split
    · rename_i hdrag
      refine ⟨?_, by simp [tracks], rfl⟩
      simp [tracks, hdrag, hphase, MoveState.phase]
    · rename_i hdrag
      refine ⟨?_, rfl, rfl⟩
      simp [tracks, hdrag]

theorem beginManualMove_eq : (view.beginManualMove env).1 = view.tracks env ∧
    (view.beginManualMove env).2.status = { view.status with
      phase := if view.tracks env then .dragging else view.status.phase } ∧
    (view.tracks env = false → (view.beginManualMove env).2 = view) := by
  unfold beginManualMove
  split
  · rename_i h
    simp [tracks, h, MoveState.phase]
  · rename_i h
    simp [tracks, h]

theorem beginManualResize_eq :
    (view.beginManualResize env).1 = (view.hoverResizeDirection.isSome && view.tracks env) ∧
      (view.beginManualResize env).2.status = { view.status with
        resizing := view.status.resizing || (view.hoverResizeDirection.isSome && view.tracks env) } := by
  have htracks : view.tracks env = (view.lastWindowCursor.isSome && env.outerPosition.isSome) := by
    cases h : view.lastWindowCursor <;> cases h' : env.outerPosition <;>
      simp [tracks, moveDragFromCurrentCursor, h, h']
  unfold beginManualResize
  split
  · rename_i h h' h''
    simp [htracks, h, h', h'', status]
  · rename_i h
    have hnot : (view.hoverResizeDirection.isSome && view.tracks env) = false := by
      rw [htracks, Bool.eq_false_iff]
      intro hall
      simp only [Bool.and_eq_true, Option.isSome_iff_exists] at hall
      obtain ⟨⟨direction, hd⟩, ⟨cursor, hc⟩, outer, ho⟩ := hall
      exact h direction cursor outer hd hc ho
    simp [hnot]

@[simp] theorem hover_syncCursor :
    (view.syncCursorFromWindowPosition env).hoverResizeDirection = view.hoverResizeDirection := by
  unfold syncCursorFromWindowPosition
  split <;> rfl

@[simp] theorem moveDrag_syncCursor : (view.syncCursorFromWindowPosition env).moveDragFromCurrentCursor
    env = view.moveDragFromCurrentCursor env := by
  unfold syncCursorFromWindowPosition
  split <;> rfl

@[simp] theorem syncCursor_syncCursor :
    (view.syncCursorFromWindowPosition env).syncCursorFromWindowPosition env =
      view.syncCursorFromWindowPosition env := by
  cases h : view.lastWindowCursor <;> simp [syncCursorFromWindowPosition, cacheFrameCursor, h]

@[simp] theorem tracks_syncCursor :
    (view.syncCursorFromWindowPosition env).tracks env = view.tracks env := by
  simp [tracks]

theorem takeTitlebarToggle_eq :
    (view.takeTitlebarToggleOnLeftPress env).2.status = { view.status with
      suppressed := view.status.suppressed || (view.takeTitlebarToggleOnLeftPress env).1 } ∧
    (view.takeTitlebarToggleOnLeftPress env).2.tracks env = view.tracks env ∧
    (view.takeTitlebarToggleOnLeftPress env).2.claimBelow env = view.claimBelow env := by
  have hclick : ∀ (suppressed : Bool) (click : Option TitlebarClick),
      let clicked := { view.syncCursorFromWindowPosition env with
        suppressNextLeftRelease := suppressed, lastTitlebarClick := click }
      clicked.status = { view.status with suppressed } ∧ clicked.tracks env = view.tracks env ∧
        clicked.claimBelow env = view.claimBelow env := by
    intro suppressed click clicked
    have hstatus := view.status_syncCursor env
    have htracks : clicked.tracks env = view.tracks env := view.tracks_syncCursor env
    have hhover : clicked.hoverResizeDirection = view.hoverResizeDirection := view.hover_syncCursor env
    refine ⟨?_, htracks, by simp only [claimBelow, htracks, hhover]⟩
    rw [← hstatus]
    rfl
  have hkept : (view.syncCursorFromWindowPosition env).suppressNextLeftRelease = view.status.suppressed :=
    congrArg PointerStatus.suppressed (view.status_syncCursor env)
  simp only [takeTitlebarToggleOnLeftPress]
  split
  · simpa using hclick true none
  · split
    · simpa [hkept] using hclick view.status.suppressed none
    · split
      · simpa [hkept] using hclick view.status.suppressed (some ⟨env.now, _, _⟩)
      · simpa using hclick true none

theorem takeTitlebarToggle_syncCursor :
    (view.syncCursorFromWindowPosition env).takeTitlebarToggleOnLeftPress env =
      view.takeTitlebarToggleOnLeftPress env := by
  simp only [takeTitlebarToggleOnLeftPress, syncCursor_syncCursor]

@[simp] theorem claim_syncCursor :
    (view.syncCursorFromWindowPosition env).claim config env = view.claim config env := by
  simp [claim, claimBelow, takeTitlebarToggle_syncCursor]

end PointerView

theorem PointerStatus.request_request (s : PointerStatus) : s.request.request = s.request := by
  obtain ⟨phase, resizing, suppressed⟩ := s
  cases phase <;> rfl

/-! ## The steps -/

def InputEvent.leftButton : InputEvent → Option InputButtonState
  | .pointerButton _ button state => if button = 0x110 then some state else none
  | _ => none

/-- What the guest was sent of its left button. -/
def leftSent (sent : List InputEvent) : List InputButtonState := sent.filterMap InputEvent.leftButton

/-- The step is not one of the left button. -/
def PointerStep.Quiet {P : Type} (s : PointerStep P) : Prop :=
  ∀ state button, s.event = .mouseInput state button → mouseButtonCode button ≠ some 0x110

def PointerStep.requests {P : Type} (s : PointerStep P) : Bool :=
  match s.event with
  | .moveRequested => true
  | _ => false

namespace PointerApp

variable {P : Type} (config : PointerConfig) (id : UInt64) (env : PointerEnv P) (app : PointerApp P)

theorem leftSent_send (events : List InputEvent) :
    leftSent (app.send events).sent = leftSent app.sent ++ leftSent events := List.filterMap_append

theorem leftSent_send_other {events : List InputEvent} (h : leftSent events = []) :
    leftSent (app.send events).sent = leftSent app.sent := by
  rw [leftSent_send, h, List.append_nil]

@[simp] theorem view_send (events : List InputEvent) : (app.send events).view = app.view := rfl

theorem cursorMoved_quiet (position : P) :
    (app.cursorMoved id env position).view.status = app.view.status ∧
      leftSent (app.cursorMoved id env position).sent = leftSent app.sent := by
  have hmove := (app.view.setLastWindowCursor position).updateManualMove_eq env position
  have hresize := ((app.view.setLastWindowCursor position).updateManualMove env position).2
    |>.updateManualResize_eq env position
  simp only [cursorMoved]
  split
  · exact ⟨hmove.2, rfl⟩
  · split
    · exact ⟨hresize.2.trans hmove.2, rfl⟩
    · split
      · exact ⟨by simp [hresize.2, hmove.2], rfl⟩
      · exact ⟨by simp [hresize.2, hmove.2], leftSent_send_other _ rfl⟩

theorem mouseWheel_quiet (delta : Option (Int32 × Int32)) :
    (app.mouseWheel id env delta).view.status = app.view.status ∧
      leftSent (app.mouseWheel id env delta).sent = leftSent app.sent := by
  cases delta with
  | none => exact ⟨rfl, rfl⟩
  | some delta => exact ⟨rfl, leftSent_send_other _ rfl⟩

theorem sendButton_sent (cursor : Int32 × Int32) (state : ElementState) (button : MouseButton) :
    (app.sendButton id cursor state button).view = app.view ∧
      leftSent (app.sendButton id cursor state button).sent = leftSent app.sent ++
        if mouseButtonCode button = some 0x110 then [.ofElement state] else [] := by
  obtain ⟨code, hcode⟩ : ∃ code, mouseButtonCode button = some code := ⟨_, rfl⟩
  simp only [sendButton, hcode, Option.some.injEq]
  refine ⟨rfl, ?_⟩
  rw [leftSent_send]
  by_cases h : code = 0x110
  · subst h
    cases state <;> rfl
  · cases state <;> simp [leftSent, List.filterMap_cons, InputEvent.leftButton, h]

/-- What happens between a press and its release: the guest's first request starts a move. -/
theorem step_quiet {s : PointerStep P} (h : s.Quiet) :
    (app.step config id s).view.status =
        (if !config.macos && s.requests then app.view.status.request else app.view.status) ∧
      leftSent (app.step config id s).sent = leftSent app.sent := by
  obtain ⟨env, event⟩ := s
  cases event with
  | cursorMoved position => simpa [step, PointerStep.requests] using app.cursorMoved_quiet id env position
  | cursorLeft => simp [step, PointerStep.requests]
  | mouseWheel delta => simpa [step, PointerStep.requests] using app.mouseWheel_quiet id env delta
  | mouseInput state button =>
    have hcode := h state button rfl
    have hleft : button ≠ .left := by
      rintro rfl
      exact hcode rfl
    have hsent := sendButton_sent id { app with view := app.view.syncCursorFromWindowPosition env }
      (app.view.syncCursorFromWindowPosition env).lastCursor state button
    simp only [step, mouseInput, if_neg hleft, Bool.false_eq_true, if_false, PointerStep.requests,
      Bool.and_false]
    rw [hsent.1, hsent.2, if_neg hcode, List.append_nil]
    exact ⟨app.view.status_syncCursor env, rfl⟩
  | moveRequested =>
    cases hmacos : config.macos with
    | true => simp [step, moveRequested, PointerStep.requests, hmacos]
    | false =>
      simp only [step, moveRequested, hmacos, PointerStep.requests, Bool.not_false, Bool.and_true, if_true,
        Bool.false_eq_true, if_false]
      exact ⟨app.view.status_beginRequestedMove config env, trivial⟩

theorem run_quiet {steps : List (PointerStep P)} (h : ∀ s ∈ steps, s.Quiet) :
    (app.run config id steps).view.status =
        (if !config.macos && steps.any PointerStep.requests then app.view.status.request
          else app.view.status) ∧
      leftSent (app.run config id steps).sent = leftSent app.sent := by
  induction steps generalizing app with
  | nil => simp [run]
  | cons s steps ih =>
    obtain ⟨hstatus, hsent⟩ := app.step_quiet config id (h s List.mem_cons_self)
    obtain ⟨hrest, hmore⟩ := ih (app.step config id s) fun s' hs' => h s' (List.mem_cons_of_mem s hs')
    refine ⟨?_, hmore.trans hsent⟩
    refine hrest.trans ?_
    rw [hstatus, List.any_cons]
    cases config.macos <;> cases s.requests <;> cases steps.any PointerStep.requests <;>
      simp [PointerStatus.request_request]

theorem beginGesture_eq :
    (app.beginGesture id env).1 = decide (app.view.claimBelow env ≠ .guest) ∧
      (app.beginGesture id env).2.view.status =
        app.view.status.press (app.view.claimBelow env) (app.view.tracks env) ∧
      leftSent (app.beginGesture id env).2.sent = leftSent app.sent := by
  obtain ⟨hstatus, htracks, hhover⟩ := app.view.rememberLeftPress_eq env
  simp only [beginGesture]
  generalize app.view.rememberLeftPress env = view at hstatus htracks hhover ⊢
  obtain ⟨hmove, hdragging, hsame⟩ := view.beginManualMove_eq env
  obtain ⟨hresize, hresizing⟩ := view.beginManualResize_eq env
  rw [htracks] at hmove hdragging hsame hresize hresizing
  rw [hhover] at hresize hresizing
  by_cases htr : app.view.tracks env
  swap
  · rw [Bool.not_eq_true] at htr
    simp [htr] at hmove hsame hresize hresizing
    cases hostMoveModifierActive env.modifiers <;>
      simp [PointerView.claimBelow, PointerStatus.press, htr, hmove, hsame, hresize, hresizing, hstatus]
  by_cases hmodifier : hostMoveModifierActive env.modifiers
  · simp [PointerView.claimBelow, PointerStatus.press, htr, hmodifier, hmove, hdragging, hstatus]
  · by_cases hborder : app.view.hoverResizeDirection.isSome
    · simp [PointerView.claimBelow, PointerStatus.press, htr, hmodifier, hborder, hresize, hresizing, hstatus]
      exact leftSent_send_other _ rfl
    · simp [PointerView.claimBelow, PointerStatus.press, htr, hmodifier, hborder, hresize, hresizing, hstatus]

theorem leftPressed_eq :
    (app.leftPressed config id env).1 = decide (app.view.claim config env ≠ .guest) ∧
      (app.leftPressed config id env).2.view.status =
        app.view.status.press (app.view.claim config env) (app.view.tracks env) ∧
      leftSent (app.leftPressed config id env).2.sent = leftSent app.sent := by
  cases hchrome : config.hostChromeEnabled with
  | true => simpa [leftPressed, PointerView.claim, hchrome] using app.beginGesture_eq id env
  | false =>
    obtain ⟨hstatus, htracks, hclaim⟩ := app.view.takeTitlebarToggle_eq env
    simp only [leftPressed, PointerView.claim, hchrome]
    generalize app.view.takeTitlebarToggleOnLeftPress env = taken at hstatus htracks hclaim ⊢
    obtain ⟨toggled, view⟩ := taken
    cases toggled with
    | true =>
      refine ⟨rfl, ?_, leftSent_send_other _ rfl⟩
      simpa [PointerStatus.press] using hstatus
    | false =>
      have hbegin := beginGesture_eq id env { app with view }
      simpa [hstatus, htracks, hclaim] using hbegin

/-- What a press of the left button leads to. -/
theorem press_eq : (app.mouseInput config id env .pressed .left).view.status =
      app.view.status.press (app.view.claim config env) (app.view.tracks env) ∧
    leftSent (app.mouseInput config id env .pressed .left).sent = leftSent app.sent ++
      if app.view.claim config env = .guest then [.pressed] else [] := by
  have hpressed := leftPressed_eq config id env { app with view := app.view.syncCursorFromWindowPosition env }
  simp only [PointerView.claim_syncCursor, PointerView.status_syncCursor, PointerView.tracks_syncCursor]
    at hpressed
  obtain ⟨hhandled, hstatus, hsent⟩ := hpressed
  simp only [mouseInput, if_true, hhandled]
  by_cases hguest : app.view.claim config env = .guest
  · have hbutton := fun app' : PointerApp P => app'.sendButton_sent id
      (app.view.syncCursorFromWindowPosition env).lastCursor .pressed .left
    simp only [hguest, ne_eq, not_true_eq_false, decide_false, Bool.false_eq_true, if_false, if_true]
      at hstatus ⊢
    rw [(hbutton _).1, (hbutton _).2, hsent]
    exact ⟨hstatus, rfl⟩
  · simp only [hguest, ne_eq, not_false_eq_true, decide_true, if_true, if_false, List.append_nil]
    exact ⟨hstatus, hsent⟩

theorem release_eq : (app.mouseInput config id env .released .left).view.status =
      app.view.status.release ∧
    leftSent (app.mouseInput config id env .released .left).sent = leftSent app.sent ++
      if app.view.status.sends then [.released] else [] := by
  have hsync := app.view.status_syncCursor env
  simp only [mouseInput, if_true, leftReleased]
  generalize app.view.syncCursorFromWindowPosition env = view at hsync ⊢
  rw [← hsync]
  have hsuppressed : view.suppressNextLeftRelease = view.status.suppressed := rfl
  obtain ⟨hmove, hmoved⟩ := view.finishManualMove_eq config env
  generalize view.finishManualMove config env = moved at hmove hmoved ⊢
  obtain ⟨handled, view'⟩ := moved
  obtain rfl : handled = _ := hmove
  have hresting : { view' with pendingTileRemoteResize := none }.status =
    { view.status with phase := .resting } := hmoved
  obtain ⟨hresize, hresized⟩ := PointerView.finishManualResize_eq env
    { view' with pendingTileRemoteResize := none } (by rw [hresting])
  rw [hresting] at hresize hresized
  rw [hsuppressed]
  by_cases hs : view.status.suppressed
  · simp only [hs, if_true, PointerStatus.release, PointerStatus.sends, Bool.not_true, Bool.false_and,
      Bool.false_eq_true, if_false, List.append_nil]
    exact ⟨rfl, trivial⟩
  by_cases hd : view.status.phase = .dragging
  · simp only [hs, hd, if_true, if_false, decide_true, PointerStatus.release, PointerStatus.sends, ne_eq,
      not_true_eq_false, decide_false, Bool.and_false, Bool.false_and, Bool.false_eq_true, List.append_nil]
    refine ⟨hresting.trans ?_, trivial⟩
    simp [hs]
  -- the viewer was not moving its window, so the release ends a resize or goes to the guest
  have hrest : (PointerView.finishManualResize env
      { view' with pendingTileRemoteResize := none }).2.status = .rest := by
    rw [hresized]
    simp [PointerStatus.rest, hs]
  generalize PointerView.finishManualResize env { view' with pendingTileRemoteResize := none } = settled
    at hresize hrest ⊢
  obtain ⟨handled, settled⟩ := settled
  obtain rfl : handled = _ := hresize
  have hrelease : view.status.release = .rest := by
    rw [PointerStatus.release, if_neg hs, if_neg hd]
  by_cases hr : view.status.resizing
  · simp only [hs, hd, hr, decide_false, Bool.false_eq_true, if_true, if_false, PointerStatus.sends,
      Bool.not_true, Bool.and_false, List.append_nil]
    exact ⟨hrest.trans hrelease.symm, leftSent_send_other _ rfl⟩
  · have hbutton := fun app' : PointerApp P => app'.sendButton_sent id view.lastCursor .released .left
    simp only [hs, hd, hr, decide_false, Bool.false_eq_true, if_true, if_false, PointerStatus.sends, ne_eq,
      not_false_eq_true, decide_true, Bool.not_false, Bool.and_self]
    rw [(hbutton _).1, (hbutton _).2]
    exact ⟨hrest.trans hrelease.symm, rfl⟩

end PointerApp

/-! ## Gestures -/

/-- A press of the left button and its release, with the steps before it and while it is held. -/
structure Gesture (P : Type) where
  before : List (PointerStep P)
  press : PointerEnv P
  held : List (PointerStep P)
  release : PointerEnv P
  quiet_before : ∀ s ∈ before, s.Quiet
  quiet_held : ∀ s ∈ held, s.Quiet

theorem PointerView.tracks_of_claim {P : Type} {config : PointerConfig} {env : PointerEnv P}
    {view : PointerView P} (h : view.claim config env = .move ∨ view.claim config env = .resize) :
    view.tracks env = true := by
  by_contra htracks
  rw [Bool.not_eq_true] at htracks
  simp only [claim, claimBelow, htracks] at h
  split at h <;> simp at h

namespace Gesture

variable {P : Type} (config : PointerConfig) (id : UInt64) (app : PointerApp P) (g : Gesture P)

def steps : List (PointerStep P) :=
  g.before ++ ⟨g.press, .mouseInput .pressed .left⟩ ::
    (g.held ++ [⟨g.release, .mouseInput .released .left⟩])

/-- The app before the press. -/
def ready : PointerApp P := app.run config id g.before

def claim : Claim := (g.ready config id app).view.claim config g.press

/-- The press could become a move. -/
def tracks : Bool := (g.ready config id app).view.tracks g.press

/-- The guest asks for a move by some step, and the viewer listens. -/
def asked (steps : List (PointerStep P)) : Bool :=
  !config.macos && steps.any PointerStep.requests

/-- While the viewer resizes its window, the guest asks for a move. -/
def Interrupted : Prop := g.claim config id app = .resize ∧ asked config g.held = true

/-- What the guest is to be sent of the button. A press that becomes a move of the window is not
released. -/
def answer : List InputButtonState :=
  if g.claim config id app = .guest then
    if g.tracks config id app && asked config g.held then [.pressed] else [.pressed, .released]
  else []

/-- The status in the middle of a gesture. -/
theorem status_held (hrest : app.view.status = .rest) {held : List (PointerStep P)}
    (hheld : ∀ s ∈ held, s.Quiet) :
    let pressed := PointerStatus.rest.press (g.claim config id app) (g.tracks config id app)
    let mid := app.run config id (g.before ++ ⟨g.press, .mouseInput .pressed .left⟩ :: held)
    mid.view.status = (if asked config held then pressed.request else pressed) ∧
      leftSent mid.sent = leftSent app.sent ++
        if g.claim config id app = .guest then [.pressed] else [] := by
  intro pressed mid
  obtain ⟨hready, hbefore⟩ := app.run_quiet config id g.quiet_before
  have hrested : (g.ready config id app).view.status = .rest := by
    rw [ready, hready, hrest]
    split <;> rfl
  obtain ⟨hpress, hsent⟩ := (g.ready config id app).press_eq config id g.press
  obtain ⟨hmid, hquiet⟩ := ((g.ready config id app).mouseInput config id g.press .pressed .left).run_quiet
    config id hheld
  have happ : mid = ((g.ready config id app).mouseInput config id g.press .pressed .left).run config id
      held := PointerApp.run_append config id app g.before _
  rw [happ, hmid, hquiet, hpress, hsent, hrested]
  refine ⟨rfl, ?_⟩
  rw [ready, hbefore]
  rfl

/-- A gesture that starts at rest. -/
theorem run_steps (hrest : app.view.status = .rest) :
    (¬g.Interrupted config id app → (app.run config id g.steps).view.status = .rest) ∧
      (g.Interrupted config id app → (app.run config id g.steps).view.status = .resizes) ∧
      leftSent (app.run config id g.steps).sent = leftSent app.sent ++ g.answer config id app := by
  obtain ⟨hstatus, hsent⟩ := g.status_held config id app hrest g.quiet_held
  have hsteps : app.run config id g.steps = (app.run config id (g.before ++
      ⟨g.press, .mouseInput .pressed .left⟩ :: g.held)).mouseInput config id g.release .released .left := by
    rw [steps, ← List.cons_append, ← List.append_assoc, PointerApp.run_append]
    rfl
  obtain ⟨hrelease, hreleased⟩ := (app.run config id (g.before ++
    ⟨g.press, .mouseInput .pressed .left⟩ :: g.held)).release_eq config id g.release
  rw [hsteps, hrelease, hreleased, hstatus, hsent, List.append_assoc]
  have htracks : g.claim config id app = .move ∨ g.claim config id app = .resize →
    g.tracks config id app = true := PointerView.tracks_of_claim
  simp only [Interrupted, answer]
  generalize g.claim config id app = claim at htracks ⊢
  generalize g.tracks config id app = tracks at htracks ⊢
  generalize asked config g.held = asked
  cases claim <;> cases tracks <;> cases asked <;> simp at htracks <;>
    simp [PointerStatus.press, PointerStatus.request, PointerStatus.release, PointerStatus.sends,
      PointerStatus.rest, PointerStatus.resizes]

/-- A run of gestures. -/
def runAll (gs : List (Gesture P)) : PointerApp P := app.run config id (gs.flatMap steps)

theorem runAll_append (gs : List (Gesture P)) :
    runAll config id app (gs ++ [g]) = (runAll config id app gs).run config id g.steps := by
  simp [runAll, PointerApp.run_append]

end Gesture

/-! ## Runs of gestures -/

section Runs

variable {P : Type} {config : PointerConfig} {id : UInt64} {gs : List (Gesture P)} {g : Gesture P}

open Gesture (runAll)

theorem PointerView.updateManualMove_calls (env : PointerEnv P) (view : PointerView P) (position : P) :
    (view.updateManualMove env position).2.calls ≠ view.calls ↔ view.status.phase = .dragging := by
  cases h : view.moveState <;> simp [updateManualMove, tell, status, MoveState.phase, h]

theorem PointerView.updateManualResize_calls (env : PointerEnv P) (view : PointerView P) (position : P) :
    (view.updateManualResize env position).2.calls ≠ view.calls ↔ view.status.resizing = true := by
  cases h : view.activeResize with
  | none => simp [updateManualResize, status, h]
  | some drag =>
    simp only [updateManualResize, status, h, Option.isSome_some, iff_true]
    split <;> simp [tell]

/-- A motion tells the window of the host something only in the middle of a gesture. -/
theorem PointerApp.cursorMoved_calls (app : PointerApp P) (env : PointerEnv P) (position : P) :
    (app.cursorMoved id env position).view.calls ≠ app.view.calls ↔
      app.view.status.phase = .dragging ∨ app.view.status.resizing = true := by
  have hmoved := (app.view.setLastWindowCursor position).updateManualMove_eq env position
  have hmove := (app.view.setLastWindowCursor position).updateManualMove_calls env position
  simp only [cursorMoved]
  generalize (app.view.setLastWindowCursor position).updateManualMove env position = moved at hmoved hmove ⊢
  obtain ⟨handled, view⟩ := moved
  obtain ⟨rfl, hstatus⟩ := hmoved
  change view.calls ≠ app.view.calls ↔ app.view.status.phase = .dragging at hmove
  change view.status = app.view.status at hstatus
  have hresized := view.updateManualResize_eq env position
  have hresize := view.updateManualResize_calls env position
  rw [hstatus] at hresized hresize
  by_cases hphase : app.view.status.phase = .dragging
  · simpa [hphase] using hmove
  have hcalls : view.calls = app.view.calls := of_not_not fun h => hphase (hmove.1 h)
  generalize view.updateManualResize env position = resized at hresized hresize ⊢
  obtain ⟨handled, view'⟩ := resized
  obtain ⟨rfl, -⟩ := hresized
  rw [hcalls] at hresize
  by_cases hresizing : app.view.status.resizing = true
  · simpa [hphase, hresizing] using hresize
  · have hsame : view'.calls = app.view.calls := of_not_not fun h => hresizing (hresize.1 h)
    have hcursor : (view'.updateResizeCursor env position).calls = view'.calls := by
      unfold PointerView.updateResizeCursor
      split <;> rfl
    simp only [PointerView.status_setLastWindowCursor, hphase, hresizing, or_self, iff_false, ne_eq,
      not_not, decide_false, Bool.false_eq_true, if_false]
    split
    · exact hcursor.trans hsame
    · exact hcursor.trans hsame

/-- No gesture of the run is interrupted. -/
def Uninterrupted (config : PointerConfig) (id : UInt64) (gs : List (Gesture P)) : Prop :=
  ∀ past g, past ++ [g] <+: gs → ¬g.Interrupted config id (runAll config id .new past)

/-- The build for macOS does not listen to the guest. -/
theorem uninterrupted_of_macos (h : config.macos = true) (gs : List (Gesture P)) :
    Uninterrupted config id gs := by
  rintro past g - ⟨-, hasked⟩
  simp [Gesture.asked, h] at hasked

theorem rest_of_uninterrupted (h : Uninterrupted config id gs) :
    (runAll config id .new gs).view.status = .rest := by
  induction gs using List.reverseRecOn with
  | nil => rfl
  | append_singleton gs g ih =>
    have hpast := ih fun past g' hgrows => h past g' (hgrows.trans (List.prefix_append gs [g]))
    rw [Gesture.runAll_append]
    exact (g.run_steps config id _ hpast).1 (h gs g (List.prefix_refl _))

/-- With no button down, a window that is being resized goes on to be resized by every motion. -/
theorem motion_resizes {app : PointerApp P} (h : app.view.status = .resizes)
    {between : List (PointerStep P)} (hquiet : ∀ s ∈ between, s.Quiet) (env : PointerEnv P) (position : P) :
    ((app.run config id between).cursorMoved id env position).view.calls ≠
      (app.run config id between).view.calls := by
  have hstatus : (app.run config id between).view.status = .resizes := by
    refine (app.run_quiet config id hquiet).1.trans ?_
    rw [h]
    split <;> rfl
  rw [PointerApp.cursorMoved_calls, hstatus]
  exact .inr rfl

/-- **Every gesture ends with its release**, in every run, if and only if the guest never asks for a
move while the viewer resizes the window. The request turns the resize into a move, and the release
ends the move only: the window goes on to be resized by a pointer with no button down. -/
theorem gestures_end_iff (config : PointerConfig) (id : UInt64) (gs : List (Gesture P)) :
    ((∀ past, past <+: gs → (runAll config id .new past).view.status = .rest) ↔
      Uninterrupted config id gs) ∧
    ∀ g : Gesture P, Uninterrupted config id gs →
      g.Interrupted config id (runAll config id .new gs) →
      let up := runAll config id .new (gs ++ [g])
      up.view.status = .resizes ∧
        ∀ between : List (PointerStep P), (∀ s ∈ between, s.Quiet) → ∀ env position,
          ((up.run config id between).cursorMoved id env position).view.calls ≠
            (up.run config id between).view.calls := by
  refine ⟨⟨?_, ?_⟩, ?_⟩
  · intro h past g hgrows hinterrupted
    have hpast := h past ((List.prefix_append past [g]).trans hgrows)
    have hend := h (past ++ [g]) hgrows
    rw [Gesture.runAll_append, (g.run_steps config id _ hpast).2.1 hinterrupted] at hend
    cases hend
  · intro h past hgrows
    exact rest_of_uninterrupted fun past' g hgrows' => h past' g (hgrows'.trans hgrows)
  · intro g h hinterrupted up
    have hup : up.view.status = .resizes := by
      rw [← (g.run_steps config id _ (rest_of_uninterrupted h)).2.1 hinterrupted, ← Gesture.runAll_append]
    exact ⟨hup, fun between hquiet env position => motion_resizes hup hquiet env position⟩

section Requested

/-- A window whose border is under the cursor, or is not. -/
def stillEnv (border : Bool) : PointerEnv Unit :=
  { now := 0, modifiers := .empty, outerPosition := some ⟨10, 20⟩, snapOuter := some ⟨10, 20⟩,
    innerSize := (640, 480), isMaximized := false, frameWidth := 640, mapCursorToFrame := fun _ => (5, 300),
    resizeDirectionAt := fun _ => if border then some .east else none,
    computeManualMoveOuter := fun outer _ _ => outer, onScreen := fun _ _ => (),
    resizedTo := fun drag outer _ => ⟨outer, drag.startSize⟩, leftRightTile := fun _ _ => none,
    edgeTile := fun _ _ => none, tileSizes := fun size => (size, size), windowCenter := () }

def linuxHost : PointerConfig := { macos := false, hostChromeEnabled := true, edgeSnapEnabled := false }

/-- The cursor comes, the button goes down, and the guest asks for a move. -/
def requestedMove (border : Bool) : Gesture Unit where
  before := [⟨stillEnv border, .cursorMoved ()⟩]
  press := stillEnv border
  held := [⟨stillEnv border, .moveRequested⟩]
  release := stillEnv border
  quiet_before := by simp [PointerStep.Quiet]
  quiet_held := by simp [PointerStep.Quiet]

theorem gestures_end_iff_requested :
    (runAll linuxHost 7 .new [requestedMove true]).view.status = .resizes :=
  ((gestures_end_iff linuxHost 7 []).2 (requestedMove true)
    (fun past g hgrows => absurd hgrows.length_le (by simp)) ⟨by decide, by decide⟩).1

theorem uninterrupted_requestedMove : Uninterrupted linuxHost 7 [requestedMove false] := by
  rintro past g hgrows ⟨hclaim, -⟩
  cases past with
  | nil =>
    obtain rfl : g = requestedMove false := by simpa using hgrows
    exact absurd hclaim (by decide)
  | cons g' past =>
    have := hgrows.length_le
    simp at this

end Requested

/-- **What the guest is told of its left button.** Gesture by gesture: a press and its release, or
only the press when the press becomes a move of the window, or nothing when the viewer keeps the press
for itself. -/
theorem left_button_answered (h : Uninterrupted config id gs) :
    ∀ past g, past ++ [g] <+: gs →
      leftSent (runAll config id .new (past ++ [g])).sent =
        leftSent (runAll config id .new past).sent ++ g.answer config id (runAll config id .new past) := by
  intro past g hgrows
  have hpast : Uninterrupted config id past := fun past' g' hgrows' =>
    h past' g' (hgrows'.trans ((List.prefix_append past [g]).trans hgrows))
  rw [Gesture.runAll_append]
  exact (g.run_steps config id _ (rest_of_uninterrupted hpast)).2.2

theorem left_button_answered_requested :
    leftSent (runAll linuxHost 7 .new ([] ++ [requestedMove false])).sent = [.pressed] :=
  (left_button_answered uninterrupted_requestedMove [] (requestedMove false) (List.prefix_refl _)).trans
    (by decide)

/-- **The window of the host follows the pointer exactly while the left button is held for it**: to
move it, to resize it, or for a press of the guest that its guest has made a move of. -/
theorem motion_moves_host_iff (h : Uninterrupted config id gs) (env : PointerEnv P) (position : P) :
    (∀ between : List (PointerStep P), (∀ s ∈ between, s.Quiet) →
      let up := (runAll config id .new gs).run config id between
      (up.cursorMoved id env position).view.calls = up.view.calls) ∧
    ∀ g : Gesture P,
      let start := runAll config id .new gs
      let down := start.run config id (g.before ++ ⟨g.press, .mouseInput .pressed .left⟩ :: g.held)
      ((down.cursorMoved id env position).view.calls ≠ down.view.calls ↔
        g.claim config id start = .move ∨ g.claim config id start = .resize ∨
          (g.claim config id start = .guest ∧ g.tracks config id start = true ∧
            Gesture.asked config g.held = true)) := by
  have hrest := rest_of_uninterrupted h
  constructor
  · intro between hquiet up
    have hup : up.view.status = .rest := by
      refine ((runAll config id .new gs).run_quiet config id hquiet).1.trans ?_
      rw [hrest]
      split <;> rfl
    refine of_not_not fun hcalls => ?_
    have hnot := (up.cursorMoved_calls env position).1 hcalls
    rw [hup] at hnot
    simp [PointerStatus.rest] at hnot
  · intro g start down
    have hdown := (g.status_held config id start hrest g.quiet_held).1
    have htracks : g.claim config id start = .move ∨ g.claim config id start = .resize →
      g.tracks config id start = true := PointerView.tracks_of_claim
    rw [PointerApp.cursorMoved_calls, hdown]
    generalize g.claim config id start = claim at htracks ⊢
    generalize g.tracks config id start = tracks at htracks ⊢
    generalize Gesture.asked config g.held = asked
    cases claim <;> cases tracks <;> cases asked <;> simp at htracks <;>
      simp [PointerStatus.press, PointerStatus.request, PointerStatus.rest]

theorem motion_moves_host_requested :
    let down := (runAll linuxHost 7 .new [requestedMove false]).run linuxHost 7
      ((requestedMove false).before ++ ⟨stillEnv false, .mouseInput .pressed .left⟩ :: (requestedMove false).held)
    (down.cursorMoved 7 (stillEnv false) ()).view.calls ≠ down.view.calls :=
  ((motion_moves_host_iff uninterrupted_requestedMove (stillEnv false) ()).2 (requestedMove false)).2
    (by decide)

end Runs

end VBox
