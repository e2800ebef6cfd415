import VBox.Session.Modes

/-!
# Viewer.Fullscreen

Fullscreen on both sides. The host's window can be taken in and out of fullscreen by its user, which
the viewer notices at the next `Resized`, and by the guest, which the viewer hears of in a
`FullscreenChanged` (`crates/client/src/viewer/app.rs`). Messages may cross on the way.

* `Agree`: the invariant. The last `FullscreenChanged` on the way to the viewer is the mode of the
  window; when none is on the way, the viewer is up to date or has a `SetFullscreen` on the way.
* `fullscreen_agrees`: when nothing is on the way both sides agree, and the exchange never feeds
  itself.
-/

namespace VBox

open Compositor Raster

/-! ## The viewer's side -/

structure PendingRemoteResize where
  width : UInt32
  height : UInt32
  due : Nat

/-- One window of the viewer. `fullscreen` is what `is_window_fullscreen` says. -/
structure HostWindow where
  fullscreen : Bool
  lastHostFullscreen : Bool
  visible : Bool
  pendingProgrammaticResize : Option Size
  pendingResize : Option PendingRemoteResize
  pendingFullscreenExitResync : Option Nat
  pendingHostResizeResync : Option Nat

def physicalSizeClose (expected actual : Size) : Bool :=
  let absDiff (a b : UInt32) : UInt32 := max a b - min a b
  absDiff expected.1 actual.1 ≤ 32 && absDiff expected.2 actual.2 ≤ 32

def programmaticResizeMatches (expected actual : Size) : Bool :=
  if physicalSizeClose expected actual then true
  else
    let widthApplied := physicalSizeClose (expected.1, 1) (actual.1, 1)
    let heightApplied := physicalSizeClose (1, expected.2) (1, actual.2)
    (widthApplied && actual.2 ≤ expected.2) || (heightApplied && actual.1 ≤ expected.1)

namespace HostWindow

/-- Times are in milliseconds. -/
def remoteResizeDebounce : Nat := 80

def fullscreenExitResyncDelay : Nat := 180

def consumeProgrammaticResize (v : HostWindow) (size : Size) : HostWindow × Bool :=
  match v.pendingProgrammaticResize with
  | none => (v, false)
  | some expected =>
    ({ v with pendingProgrammaticResize := none }, programmaticResizeMatches expected size)

def queueRemoteResize (v : HostWindow) (now : Nat) (size : Size) : HostWindow :=
  { v with
    pendingResize := some
      { width := max size.1 1, height := max size.2 1, due := now + remoteResizeDebounce } }

def queueFullscreenExitResync (v : HostWindow) (now : Nat) : HostWindow :=
  { v with
    pendingResize := none
    pendingHostResizeResync := none
    pendingFullscreenExitResync := some (now + fullscreenExitResyncDelay) }

def cancelResizes (v : HostWindow) : HostWindow :=
  { v with
    pendingFullscreenExitResync := none, pendingResize := none, pendingHostResizeResync := none }

/-- `FullscreenChanged`, with `apply_window_fullscreen` taking effect at once. -/
def handleFullscreenChanged (v : HostWindow) (now : Nat) (fullscreen : Bool) : HostWindow :=
  let v :=
    { v with pendingProgrammaticResize := none, fullscreen, lastHostFullscreen := fullscreen }
  if fullscreen then v.cancelResizes else v.queueFullscreenExitResync now

/-- `Resized`: the window after it, and what is sent. `request` stands for
`resize_request_for_current_inner_size`, which computes with the scale of the screen. -/
def handleResized (v : HostWindow) (id : UInt64) (now : Nat) (size : Size)
    (request : Option Size) : HostWindow × List InputEvent :=
  let v := { v with pendingHostResizeResync := none }
  if v.fullscreen ≠ v.lastHostFullscreen then
    -- the user has toggled fullscreen on the host
    let v :=
      { v with lastHostFullscreen := v.fullscreen, pendingProgrammaticResize := none }
    let v := if v.fullscreen then v.cancelResizes else v.queueFullscreenExitResync now
    (v, [.setFullscreen id v.fullscreen])
  else if !v.fullscreen && v.visible then
    let (v, consumed) := v.consumeProgrammaticResize size
    match consumed, request with
    | false, some size => (v.queueRemoteResize now size, [])
    | _, _ => (v, [])
  else (v, [])

def sendRemoteResizeNow (id : UInt64) (width height : UInt32) : List InputEvent :=
  [.focus id true, .resize id width height]

/-- `flush_due_remote_resizes`. `scaled` is the size that `request_scaled_inner_size_if_needed` asks
for, if it asks for one. -/
def flushDueRemoteResizes (v : HostWindow) (id : UInt64) (now : Nat)
    (request scaled : Option Size) : HostWindow × List InputEvent :=
  let isDue (due : Option Nat) : Bool := due.any (· ≤ now)
  let resync :=
    match isDue v.pendingFullscreenExitResync, request with
    | true, some size => sendRemoteResizeNow id size.1 size.2
    | _, _ => []
  let resize :=
    match v.pendingResize with
    | some resize => if resize.due ≤ now then sendRemoteResizeNow id resize.width resize.height else []
    | none => []
  ({ v with
      pendingFullscreenExitResync := v.pendingFullscreenExitResync.filter (now < ·)
      pendingResize := v.pendingResize.filter (now < ·.due)
      pendingHostResizeResync := v.pendingHostResizeResync.filter (now < ·)
      pendingProgrammaticResize :=
        if isDue v.pendingHostResizeResync && !v.fullscreen then
          scaled.or v.pendingProgrammaticResize
        else v.pendingProgrammaticResize }, resync ++ resize)

/-- The shortcut asks the guest and leaves the host's window alone. -/
def fullscreenShortcut (v : HostWindow) (id : UInt64) : List InputEvent :=
  [.setFullscreen id !v.fullscreen]

end HostWindow

/-! ## Both sides -/

/-- The compositor, whose `tx` is on the way to the viewer, and the viewer. `resized` are the sizes
of the `Resized` events that the viewer has not handled, `toServer` is on the way to the compositor,
and `sent` is everything that ever was. -/
structure FullscreenSync where
  app : App
  view : HostWindow
  resized : List Size
  toServer : List InputEvent
  sent : List InputEvent

inductive FullscreenEvent where
  /-- A callback of the compositor. -/
  | guest (call : Call)
  /-- The compositor handles the next input. -/
  | input (env : Env)
  /-- The viewer handles the next message. A change of the host's window may be reported as
  `Resized`; other messages may set sizes to come. -/
  | message (now : Nat) (reported : Option Size) (programmatic : Option Size)
      (resize : Option PendingRemoteResize) (resync : Option Nat)
  /-- The user toggles fullscreen on the host. -/
  | nativeToggle (size : Size)
  | hostResized (size : Size)
  /-- The viewer handles the next `Resized`. -/
  | resizedHandled (now : Nat) (request : Option Size)
  | shortcut
  | flush (now : Nat) (request scaled : Option Size)
  /-- Any other input from the host, resizes included. -/
  | hostInput (event : InputEvent)

namespace FullscreenSync

def send (s : FullscreenSync) (events : List InputEvent) : FullscreenSync :=
  { s with toServer := s.toServer ++ events, sent := s.sent ++ events }

/-- The viewer's side of a message. -/
def viewMessage (v : HostWindow) (id : UInt64) (now : Nat) (programmatic : Option Size)
    (resize : Option PendingRemoteResize) (resync : Option Nat) (msg : Message) : HostWindow :=
  match App.echo id msg with
  | some fullscreen => v.handleFullscreenChanged now fullscreen
  | none =>
    { v with
      pendingProgrammaticResize := programmatic.or v.pendingProgrammaticResize
      pendingResize := resize.or v.pendingResize
      pendingHostResizeResync := resync.or v.pendingHostResizeResync }

def step (id : UInt64) (s : FullscreenSync) : FullscreenEvent → Except Fault FullscreenSync
  | .guest call => do return { s with app := ← s.app.step call }
  | .input env =>
    match s.toServer with
    | [] => .ok s
    | event :: rest => do
      return { s with app := ← s.app.step { env, event := .input event }, toServer := rest }
  | .message now reported programmatic resize resync =>
    match s.app.tx with
    | [] => .ok s
    | msg :: rest =>
      .ok { s with
        app := { s.app with tx := rest }
        view := viewMessage s.view id now programmatic resize resync msg
        resized := s.resized ++ reported.toList }
  | .nativeToggle size =>
    .ok { s with
      view := { s.view with fullscreen := !s.view.fullscreen }, resized := s.resized ++ [size] }
  | .hostResized size => .ok { s with resized := s.resized ++ [size] }
  | .resizedHandled now request =>
    match s.resized with
    | [] => .ok s
    | size :: rest =>
      let (view, events) := s.view.handleResized id now size request
      .ok ({ s with view, resized := rest }.send events)
  | .shortcut => .ok (s.send (s.view.fullscreenShortcut id))
  | .flush now request scaled =>
    let (view, events) := s.view.flushDueRemoteResizes id now request scaled
    .ok ({ s with view }.send events)
  | .hostInput event => .ok (s.send [event])

def run (id : UInt64) (s : FullscreenSync) (events : List FullscreenEvent) :
    Except Fault FullscreenSync := events.foldlM (step id) s

/-- A new window, on both sides. -/
def start (app : App) (surface : ObjectId) (title appId : String) (visible : Bool) :
    FullscreenSync :=
  { app := { app with tx := [] }.newToplevel surface title appId
    view :=
      { fullscreen := false, lastHostFullscreen := false, visible,
        pendingProgrammaticResize := none, pendingResize := none,
        pendingFullscreenExitResync := none, pendingHostResizeResync := none }
    resized := [], toServer := [], sent := [] }

/-- No window is maximized, by the host or the guest, and no other window is made. What the host
asks about fullscreen are the toggles and the shortcut. -/
def NoMaximize : FullscreenEvent → Prop
  | .guest call =>
    match call.event with
    | .newToplevel _ _ _ | .maximizeRequest _ | .unmaximizeRequest _ | .input _ => False
    | _ => True
  | .hostInput (.toggleMaximize _) | .hostInput (.setFullscreen _ _) => False
  | _ => True

structure Agree (id : UInt64) (s : FullscreenSync) : Prop where
  host : s.view.fullscreen = s.view.lastHostFullscreen ∨ s.resized ≠ []
  input : ∀ event ∈ s.toServer, ∀ i, event ≠ .toggleMaximize i
  echo : ∀ window, s.app.windows.get? id = some window →
    match App.lastEcho s.app.tx id with
    | some told => told = window.mode.isFullscreen
    | none => s.view.lastHostFullscreen = window.mode.isFullscreen ∨
        ∃ fullscreen, .setFullscreen id fullscreen ∈ s.toServer

variable {id : UInt64} {s s' : FullscreenSync}

/-! ## The steps that take from a queue -/

theorem step_input {env : Env} (h : s.step id (.input env) = .ok s') :
    s' = s ∨ ∃ event rest app, s.toServer = event :: rest ∧
      s.app.step { env, event := .input event } = .ok app ∧ s' = { s with app, toServer := rest } := by
  simp only [FullscreenSync.step] at h
  split at h
  · cases h
    exact .inl rfl
  · rename_i event rest hqueue
    obtain ⟨app, happ, h⟩ := bind_eq_ok.1 h
    cases h
    exact .inr ⟨event, rest, app, hqueue, happ, rfl⟩

theorem step_message {now : Nat} {reported programmatic : Option Size}
    {resize : Option PendingRemoteResize} {resync : Option Nat}
    (h : s.step id (.message now reported programmatic resize resync) = .ok s') :
    (s.app.tx = [] ∧ s' = s) ∨ ∃ msg rest, s.app.tx = msg :: rest ∧
      s' = { s with
        app := { s.app with tx := rest }
        view := viewMessage s.view id now programmatic resize resync msg
        resized := s.resized ++ reported.toList } := by
  simp only [FullscreenSync.step] at h
  split at h
  · rename_i htx
    cases h
    exact .inl ⟨htx, rfl⟩
  · rename_i msg rest htx
    cases h
    exact .inr ⟨msg, rest, htx, rfl⟩

theorem step_resizedHandled {now : Nat} {request : Option Size}
    (h : s.step id (.resizedHandled now request) = .ok s') :
    s' = s ∨ ∃ size rest, s' = { s with
        view := (s.view.handleResized id now size request).1, resized := rest }.send
      (s.view.handleResized id now size request).2 := by
  simp only [FullscreenSync.step] at h
  split at h
  · cases h
    exact .inl rfl
  · rename_i size rest _
    cases h
    exact .inr ⟨size, rest, rfl⟩

/-! ## What a step keeps -/

/-- The viewer's queue can only grow behind what is on the way. -/
theorem Agree.send (hs : Agree id s) {events : List InputEvent}
    (hevents : ∀ event ∈ events, ∀ i, event ≠ .toggleMaximize i) : Agree id (s.send events) := by
  refine ⟨hs.host, fun event hmem => ?_, fun window hwindow => ?_⟩
  · obtain hmem | hmem := List.mem_append.1 hmem
    · exact hs.input event hmem
    · exact hevents event hmem
  · have hecho := hs.echo window hwindow
    simp only [FullscreenSync.send]
    split
    · rename_i told htold
      rw [htold] at hecho
      exact hecho
    · rename_i htold
      rw [htold] at hecho
      obtain hview | ⟨fullscreen, hmem⟩ := hecho
      · exact .inl hview
      · exact .inr ⟨fullscreen, List.mem_append_left _ hmem⟩

/-- A callback that tells the viewer about every change, and after which the `SetFullscreen`s on the
way are still there unless it told something. -/
theorem Agree.server (hs : Agree id s) {app : App} {rest : List InputEvent} {told : Option Bool}
    (hrest : ∀ event ∈ rest, event ∈ s.toServer)
    (hechoes : App.echoes app.tx id = App.echoes s.app.tx id ++ told.toList)
    (hwindows : ∀ window', app.windows.get? id = some window' →
      ∃ window, s.app.windows.get? id = some window ∧
        window'.mode.isFullscreen = told.getD window.mode.isFullscreen ∧
        (told = none → ∀ fullscreen, .setFullscreen id fullscreen ∈ s.toServer →
          .setFullscreen id fullscreen ∈ rest)) :
    Agree id { s with app, toServer := rest } := by
  refine ⟨hs.host, fun event hmem => hs.input event (hrest event hmem), fun window' hwindow' => ?_⟩
  obtain ⟨window, hwindow, hmode, hkept⟩ := hwindows window' hwindow'
  have hlast := App.lastEcho_of_echoes hechoes
  have hecho := hs.echo window hwindow
  cases told with
  | some fullscreen =>
    simp only [hlast, Option.some_or]
    exact hmode.symm
  | none =>
    simp only [hlast, Option.none_or]
    rw [Option.getD_none] at hmode
    rw [hmode]
    split
    · rename_i told htold
      rw [htold] at hecho
      exact hecho
    · rename_i htold
      rw [htold] at hecho
      exact hecho.imp_right fun ⟨fullscreen, hmem⟩ => ⟨fullscreen, hkept rfl fullscreen hmem⟩

theorem modeRequest_input_ne (id : UInt64) {app : App} {env : Env} {event : InputEvent}
    (h : ∀ i, event ≠ .toggleMaximize i) :
    app.modeRequest { env, event := .input event } ≠ some (id, .maximize) := by
  cases event with
  | toggleMaximize i => exact absurd rfl (h i)
  | setFullscreen i fullscreen => cases fullscreen <;> simp [App.modeRequest]
  | _ => simp [App.modeRequest]

/-- The compositor answers every `SetFullscreen`. -/
theorem apply_setFullscreen (maxOutputSize : Size) (now : Nat) (window : Compositor.RemoteWindow)
    (fullscreen : Bool) :
    (ModeRequest.apply maxOutputSize now window
      (if fullscreen then .fullscreen else .unfullscreen false)).2 = some fullscreen := by
  cases fullscreen with
  | true =>
    simp only [if_true, ModeRequest.apply]
    split
    · split <;> rfl
    · rfl
  | false =>
    simp only [if_false, Bool.false_eq_true, ModeRequest.apply, false_and]
    split <;> rfl

theorem Agree.input_step (hs : Agree id s) {env : Env} {event : InputEvent}
    {rest : List InputEvent} (hqueue : s.toServer = event :: rest) {app : App}
    (h : s.app.step { env, event := .input event } = .ok app) :
    Agree id { s with app, toServer := rest } ∧
      (App.echoes app.tx id).length ≤ (App.echoes s.app.tx id).length + 1 := by
  have hmem : event ∈ s.toServer := hqueue ▸ List.mem_cons_self
  obtain ⟨told, hechoes, hwindows⟩ := App.step_echo (fun _ _ _ => Event.noConfusion)
    (modeRequest_input_ne id (hs.input event hmem)) h
  refine ⟨hs.server (fun e he => hqueue ▸ List.mem_cons_of_mem _ he) hechoes
    fun window' hwindow' => ?_, ?_⟩
  · obtain ⟨window, hwindow, hmode, htold⟩ := hwindows window' hwindow'
    refine ⟨window, hwindow, hmode, fun hnone fullscreen hset => ?_⟩
    rw [hqueue, List.mem_cons] at hset
    obtain rfl | hset := hset
    · -- it is the one being handled, and it is answered
      have hanswer := htold _ rfl
      rw [apply_setFullscreen, hnone] at hanswer
      cases hanswer
    · exact hset
  · rw [hechoes, List.length_append]
    cases told <;> simp

theorem Agree.guest_step (hs : Agree id s) {call : Call} (hcall : NoMaximize (.guest call)) {app : App}
    (h : s.app.step call = .ok app) : Agree id { s with app } := by
  have hnew : ∀ surface title appId, call.event ≠ .newToplevel surface title appId := by
    intro surface title appId hevent
    rw [NoMaximize, hevent] at hcall
    exact hcall
  have hmax : s.app.modeRequest call ≠ some (id, .maximize) := by
    obtain ⟨env, event⟩ := call
    cases event with
    | newToplevel | maximizeRequest | unmaximizeRequest | input => exact hcall.elim
    | _ => simp [App.modeRequest]
  obtain ⟨told, hechoes, hwindows⟩ := App.step_echo hnew hmax h
  refine hs.server (fun _ hmem => hmem) hechoes fun window' hwindow' => ?_
  obtain ⟨window, hwindow, hmode, -⟩ := hwindows window' hwindow'
  exact ⟨window, hwindow, hmode, fun _ _ hmem => hmem⟩

/-- A message leaves the viewer's window as it is, or takes it where the message says. -/
theorem viewMessage_spec (v : HostWindow) (id : UInt64) (now : Nat) (programmatic : Option Size)
    (resize : Option PendingRemoteResize) (resync : Option Nat) (msg : Message) :
    (viewMessage v id now programmatic resize resync msg).fullscreen =
        (App.echo id msg).getD v.fullscreen ∧
      (viewMessage v id now programmatic resize resync msg).lastHostFullscreen =
        (App.echo id msg).getD v.lastHostFullscreen := by
  unfold viewMessage
  cases hecho : App.echo id msg with
  | none => exact ⟨rfl, rfl⟩
  | some fullscreen => cases fullscreen <;> exact ⟨rfl, rfl⟩

theorem Agree.message (hs : Agree id s) {msg : Message} {rest : List Message}
    (htx : s.app.tx = msg :: rest) (now : Nat) (reported programmatic : Option Size)
    (resize : Option PendingRemoteResize) (resync : Option Nat) :
    Agree id
      { s with
        app := { s.app with tx := rest }
        view := viewMessage s.view id now programmatic resize resync msg
        resized := s.resized ++ reported.toList } := by
  obtain ⟨hfull, hlast⟩ := viewMessage_spec s.view id now programmatic resize resync msg
  have hsplit : App.lastEcho s.app.tx id = (App.lastEcho rest id).or (App.echo id msg) := by
    rw [htx, App.lastEcho, ← List.singleton_append, App.echoes_append, App.echoes_singleton,
      List.getLast?_append]
    cases App.echo id msg <;> rfl
  refine ⟨?_, hs.input, fun window hwindow => ?_⟩
  · simp only [hfull, hlast]
    cases hecho : App.echo id msg with
    | some fullscreen => exact .inl rfl
    | none => exact hs.host.imp_right fun hne => List.append_ne_nil_of_left_ne_nil hne _
  · have hecho := hs.echo window hwindow
    rw [hsplit] at hecho
    simp only [hlast]
    cases hrest : App.lastEcho rest id with
    | some told =>
      rw [hrest] at hecho
      exact hecho
    | none =>
      rw [hrest, Option.none_or] at hecho
      cases hmsg : App.echo id msg with
      | none =>
        rw [hmsg] at hecho
        exact hecho
      | some fullscreen =>
        rw [hmsg] at hecho
        exact .inl hecho

theorem consumeProgrammaticResize_spec (v : HostWindow) (size : Size) :
    (v.consumeProgrammaticResize size).1.fullscreen = v.fullscreen ∧
      (v.consumeProgrammaticResize size).1.lastHostFullscreen = v.lastHostFullscreen := by
  unfold HostWindow.consumeProgrammaticResize
  split <;> exact ⟨rfl, rfl⟩

/-- After a `Resized` the viewer knows whether its window is fullscreen, and has told the guest if it
is news. -/
theorem handleResized_spec (v : HostWindow) (id : UInt64) (now : Nat) (size : Size)
    (request : Option Size) :
    (v.handleResized id now size request).1.fullscreen = v.fullscreen ∧
      (v.handleResized id now size request).1.lastHostFullscreen = v.fullscreen ∧
      (v.handleResized id now size request).2 =
        if v.fullscreen = v.lastHostFullscreen then [] else [.setFullscreen id v.fullscreen] := by
  by_cases hnews : v.fullscreen = v.lastHostFullscreen
  · obtain ⟨hfull, hlast⟩ :=
      consumeProgrammaticResize_spec { v with pendingHostResizeResync := none } size
    have hlast' := hlast.trans hnews.symm
    rw [if_pos hnews]
    simp only [HostWindow.handleResized]
    rw [if_neg (not_not_intro hnews)]
    split
    · split
      · exact ⟨hfull, hlast', rfl⟩
      · exact ⟨hfull, hlast', rfl⟩
    · exact ⟨rfl, hnews.symm, rfl⟩
  · simp only [HostWindow.handleResized]
    rw [if_pos hnews, if_neg hnews]
    cases hfull : v.fullscreen
    · simp [HostWindow.queueFullscreenExitResync]
    · simp [HostWindow.cancelResizes]

theorem Agree.resized (hs : Agree id s) {size : Size} {rest : List Size}
    (now : Nat) (request : Option Size) :
    Agree id
      ({ s with
          view := (s.view.handleResized id now size request).1, resized := rest }.send
        (s.view.handleResized id now size request).2) := by
  obtain ⟨hfull, hlast, hsent⟩ := handleResized_spec s.view id now size request
  by_cases hnews : s.view.fullscreen = s.view.lastHostFullscreen
  · rw [if_pos hnews] at hsent
    rw [hsent]
    have hview : Agree id
        { s with view := (s.view.handleResized id now size request).1, resized := rest } :=
      ⟨.inl (hfull.trans hlast.symm), hs.input, by rw [hlast, hnews]; exact hs.echo⟩
    exact hview.send fun _ hmem => (nomatch hmem)
  · rw [if_neg hnews] at hsent
    rw [hsent]
    refine ⟨.inl (hfull.trans hlast.symm), ?_, fun window hwindow => ?_⟩
    · intro event hmem
      obtain hmem | hmem := List.mem_append.1 hmem
      · exact hs.input event hmem
      · rw [List.mem_singleton.1 hmem]
        exact fun _ => InputEvent.noConfusion
    · have hecho := hs.echo window hwindow
      simp only [FullscreenSync.send]
      split
      · rename_i told htold
        rw [htold] at hecho
        exact hecho
      · exact .inr ⟨_, List.mem_append_right _ List.mem_cons_self⟩

theorem flush_spec (v : HostWindow) (id : UInt64) (now : Nat) (request scaled : Option Size) :
    (v.flushDueRemoteResizes id now request scaled).1.fullscreen = v.fullscreen ∧
      (v.flushDueRemoteResizes id now request scaled).1.lastHostFullscreen = v.lastHostFullscreen ∧
      ∀ event ∈ (v.flushDueRemoteResizes id now request scaled).2,
        ∃ i, event = .focus i true ∨ ∃ width height, event = .resize i width height := by
  have hsent : ∀ width height, ∀ event ∈ HostWindow.sendRemoteResizeNow id width height,
      ∃ i, event = .focus i true ∨ ∃ width height, event = .resize i width height := by
    intro width height event hmem
    simp only [HostWindow.sendRemoteResizeNow, List.mem_cons, List.not_mem_nil, or_false] at hmem
    obtain rfl | rfl := hmem
    · exact ⟨id, .inl rfl⟩
    · exact ⟨id, .inr ⟨width, height, rfl⟩⟩
  refine ⟨rfl, rfl, fun event hmem => ?_⟩
  simp only [HostWindow.flushDueRemoteResizes, List.mem_append] at hmem
  obtain hmem | hmem := hmem
  · split at hmem
    · exact hsent _ _ event hmem
    · cases hmem
  · split at hmem
    · split at hmem
      · exact hsent _ _ event hmem
      · cases hmem
    · cases hmem

theorem Agree.step (hs : Agree id s) {e : FullscreenEvent} (he : NoMaximize e)
    (h : s.step id e = .ok s') : Agree id s' := by
  cases e with
  | guest call =>
    obtain ⟨app, happ, h⟩ := bind_eq_ok.1 h
    cases h
    exact hs.guest_step he happ
  | input env =>
    obtain rfl | ⟨event, rest, app, hqueue, happ, rfl⟩ := step_input h
    · exact hs
    · exact (hs.input_step hqueue happ).1
  | message now reported programmatic resize resync =>
    obtain ⟨-, rfl⟩ | ⟨msg, rest, htx, rfl⟩ := step_message h
    · exact hs
    · exact hs.message htx now reported programmatic resize resync
  | nativeToggle size =>
    cases h
    exact ⟨.inr (by simp), hs.input, hs.echo⟩
  | hostResized size =>
    cases h
    exact ⟨.inr (by simp), hs.input, hs.echo⟩
  | resizedHandled now request =>
    obtain rfl | ⟨size, rest, rfl⟩ := step_resizedHandled h
    · exact hs
    · exact hs.resized now request
  | shortcut =>
    cases h
    refine hs.send fun event hmem i => ?_
    rw [List.mem_singleton.1 hmem]
    exact InputEvent.noConfusion
  | flush now request scaled =>
    cases h
    obtain ⟨hfull, hlast, hsent⟩ := flush_spec s.view id now request scaled
    have hview : Agree id { s with view := (s.view.flushDueRemoteResizes id now request scaled).1 } :=
      ⟨by rw [hfull, hlast]; exact hs.host, hs.input, by rw [hlast]; exact hs.echo⟩
    refine hview.send fun event hmem i heq => ?_
    obtain ⟨j, rfl | ⟨width, height, rfl⟩⟩ := hsent event hmem
    · cases heq
    · cases heq
  | hostInput event =>
    cases h
    refine hs.send fun event' hmem i heq => ?_
    rw [List.mem_singleton.1 hmem] at heq
    subst heq
    exact he

theorem agree_start (app : App) (surface : ObjectId) (title appId : String) (visible : Bool) :
    Agree app.nextWindowId (start app surface title appId visible) := by
  refine ⟨.inl rfl, fun _ hmem => (nomatch hmem), fun window hwindow => ?_⟩
  have hecho := App.echoes_newToplevel app surface title appId window hwindow
  have hnone := App.lastEcho_newToplevel app surface title appId
  rw [hnone] at hecho
  simp only [start, hnone]
  exact .inl hecho

theorem Agree.run (hs : Agree id s) {events : List FullscreenEvent}
    (hevents : ∀ e ∈ events, NoMaximize e) (h : s.run id events = .ok s') : Agree id s' :=
  foldlM_invariant_mem (fun e he _ _ hs hstep => hs.step (hevents e he) hstep) hs h

/-! ## No ping-pong -/

def isSetFullscreen : InputEvent → Bool
  | .setFullscreen _ _ => true
  | _ => false

/-- What the user of the host does about fullscreen. -/
def isGesture : FullscreenEvent → Bool
  | .nativeToggle _ | .shortcut => true
  | _ => false

/-- The `SetFullscreen` sent so far, and the one to come at the next `Resized`. -/
def requests (s : FullscreenSync) : Nat :=
  s.sent.countP isSetFullscreen + if s.view.fullscreen = s.view.lastHostFullscreen then 0 else 1

theorem requests_send (s : FullscreenSync) (events : List InputEvent) :
    (s.send events).requests = s.requests + events.countP isSetFullscreen := by
  unfold requests send
  rw [List.countP_append]
  exact Nat.add_right_comm _ _ _

theorem requests_flush (s : FullscreenSync) (id : UInt64) (now : Nat) (request scaled : Option Size) :
    ({ s with view := (s.view.flushDueRemoteResizes id now request scaled).1 }.send
      (s.view.flushDueRemoteResizes id now request scaled).2).requests = s.requests := by
  obtain ⟨hfull, hlast, hsent⟩ := flush_spec s.view id now request scaled
  have hnone : (s.view.flushDueRemoteResizes id now request scaled).2.countP isSetFullscreen = 0 := by
    refine List.countP_eq_zero.2 fun event hmem => ?_
    obtain ⟨i, rfl | ⟨width, height, rfl⟩⟩ := hsent event hmem
    · simp [isSetFullscreen]
    · simp [isSetFullscreen]
  rw [requests_send, hnone]
  simp only [requests, hfull, hlast, Nat.add_zero]

theorem requests_step {e : FullscreenEvent} (he : NoMaximize e) (h : s.step id e = .ok s') :
    s'.requests ≤ s.requests + if isGesture e then 1 else 0 := by
  cases e with
  | guest call =>
    obtain ⟨app, happ, h⟩ := bind_eq_ok.1 h
    cases h
    exact Nat.le_refl _
  | input env =>
    obtain rfl | ⟨event, rest, app, -, -, rfl⟩ := step_input h
    · exact Nat.le_refl _
    · exact Nat.le_refl _
  | message now reported programmatic resize resync =>
    obtain ⟨-, rfl⟩ | ⟨msg, rest, -, rfl⟩ := step_message h
    · exact Nat.le_refl _
    · obtain ⟨hfull, hlast⟩ := viewMessage_spec s.view id now programmatic resize resync msg
      simp only [requests, hfull, hlast, isGesture]
      cases App.echo id msg with
      | none => simp
      | some fullscreen => simp
  | nativeToggle size =>
    cases h
    simp only [requests, isGesture, if_true]
    split <;> split <;> omega
  | hostResized size =>
    cases h
    exact Nat.le_refl _
  | resizedHandled now request =>
    obtain rfl | ⟨size, rest, rfl⟩ := step_resizedHandled h
    · exact Nat.le_refl _
    · obtain ⟨hfull, hlast, hsent⟩ := handleResized_spec s.view id now size request
      rw [requests_send, hsent]
      simp only [requests, hfull, hlast, isGesture]
      by_cases hnews : s.view.fullscreen = s.view.lastHostFullscreen
      · simp [hnews]
      · simp [hnews, isSetFullscreen]
  | shortcut =>
    cases h
    rw [requests_send]
    exact Nat.le_refl _
  | flush now request scaled =>
    cases h
    exact (requests_flush s id now request scaled).le
  | hostInput event =>
    cases h
    have hnone : isSetFullscreen event = false := by
      cases event with
      | setFullscreen => exact he.elim
      | _ => rfl
    rw [requests_send, List.countP_singleton, hnone]
    exact Nat.le_refl _

theorem requests_run {events : List FullscreenEvent} (hevents : ∀ e ∈ events, NoMaximize e)
    (h : s.run id events = .ok s') : s'.requests ≤ s.requests + events.countP isGesture := by
  induction events generalizing s with
  | nil =>
    cases h
    exact Nat.le_refl _
  | cons e events ih =>
    obtain ⟨s₁, hs₁, h⟩ := bind_eq_ok.1 h
    have hstep := requests_step (hevents e List.mem_cons_self) hs₁
    have hrest := ih (fun e' he' => hevents e' (List.mem_cons_of_mem _ he')) h
    rw [List.countP_cons]
    omega

/-- **Both sides agree on fullscreen whenever nothing is on the way**, and nothing goes back and
forth: an input tells the viewer at most once, a message sends nothing and leaves nothing to be sent
at the next `Resized`, and the viewer never sends more requests than its user has made. -/
theorem fullscreen_agrees (app : App) (surface : ObjectId) (title appId : String) (visible : Bool)
    (events : List FullscreenEvent) (hevents : ∀ e ∈ events, NoMaximize e) (s : FullscreenSync)
    (hrun : (start app surface title appId visible).run app.nextWindowId events = .ok s) :
    (s.toServer = [] → s.app.tx = [] → s.resized = [] →
      ∀ window, s.app.windows.get? app.nextWindowId = some window →
        s.view.fullscreen = window.mode.isFullscreen ∧
          s.view.lastHostFullscreen = window.mode.isFullscreen) ∧
    (∀ env s', s.step app.nextWindowId (.input env) = .ok s' →
      (App.echoes s'.app.tx app.nextWindowId).length ≤
        (App.echoes s.app.tx app.nextWindowId).length + 1) ∧
    (∀ now reported programmatic resize resync s',
      s.step app.nextWindowId (.message now reported programmatic resize resync) = .ok s' →
        s'.toServer = s.toServer ∧ s'.sent = s.sent ∧
          ∀ msg rest, s.app.tx = msg :: rest → (App.echo app.nextWindowId msg).isSome →
            s'.view.fullscreen = s'.view.lastHostFullscreen) ∧
    s.sent.countP isSetFullscreen ≤ events.countP isGesture := by
  have hagree := (agree_start app surface title appId visible).run hevents hrun
  refine ⟨fun hserver htx hresized window hwindow => ?_, fun env s' h => ?_,
    fun now reported programmatic resize resync s' h => ?_, ?_⟩
  · have hhost := hagree.host.resolve_right fun hne => hne hresized
    have hecho := hagree.echo window hwindow
    rw [htx, hserver] at hecho
    obtain hlast | ⟨_, hmem⟩ := hecho
    · exact ⟨hhost.trans hlast, hlast⟩
    · cases hmem
  · obtain rfl | ⟨event, rest, app', hqueue, happ', rfl⟩ := step_input h
    · omega
    · exact (hagree.input_step hqueue happ').2
  · obtain ⟨htx, rfl⟩ | ⟨msg, rest, htx, rfl⟩ := step_message h
    · refine ⟨rfl, rfl, fun msg rest hcons => ?_⟩
      rw [htx] at hcons
      cases hcons
    · refine ⟨rfl, rfl, fun msg' rest' hcons hsome => ?_⟩
      rw [htx] at hcons
      cases hcons
      obtain ⟨hfull, hlast⟩ :=
        viewMessage_spec s.view app.nextWindowId now programmatic resize resync msg
      obtain ⟨fullscreen, hecho⟩ := Option.isSome_iff_exists.1 hsome
      simp only [hfull, hlast, hecho, Option.getD_some]
  · have hrequests := requests_run hevents hrun
    simp only [requests, start, List.countP_nil, if_true, Nat.zero_add] at hrequests
    omega

/-- The user leaves fullscreen on the host while the guest asks for it. -/
theorem fullscreen_agrees_crossing :
    ∃ s, (start (App.start ⟨"vbox", 640, 480⟩) 0 "" "" true).run 1
        [.nativeToggle (640, 480), .resizedHandled 0 none, .input App.bareEnv,
          .nativeToggle (300, 200), .guest { env := App.bareEnv, event := .fullscreenRequest 0 },
          .resizedHandled 5 none, .message 6 none none none none, .message 7 none none none none,
          .message 8 none none none none, .input App.bareEnv, .message 9 none none none none] =
        .ok s ∧
      s.view.fullscreen = false ∧ s.sent.countP isSetFullscreen ≤ 2 := by
  refine ⟨_, rfl, ?_⟩
  have hagrees := fullscreen_agrees (App.start ⟨"vbox", 640, 480⟩) 0 "" "" true
    [.nativeToggle (640, 480), .resizedHandled 0 none, .input App.bareEnv,
      .nativeToggle (300, 200), .guest { env := App.bareEnv, event := .fullscreenRequest 0 },
      .resizedHandled 5 none, .message 6 none none none none, .message 7 none none none none,
      .message 8 none none none none, .input App.bareEnv, .message 9 none none none none]
    (by simp [NoMaximize]) _ rfl
  exact ⟨(hagrees.1 rfl rfl rfl _ rfl).1, hagrees.2.2.2⟩

end FullscreenSync
end VBox
