import VBox.Session.Seat

/-!
# Session.Focus

The focus over whole sessions. What a callback can do to the seat are the moves of `Session.Seat`, and
each of them keeps `Seat.Agrees`.

* `Seat.focus_agrees`: keyboard, clipboard, text inputs and the `Activated` flags follow the active
  window.
* `Seat.text_inputs_conform`: every text input is told what the protocol allows.
* `Seat.input_reaches_window`: keys and text for a window that is open go nowhere else.
-/

namespace VBox.Compositor

/-! ## The protocol of text inputs -/

/-- What both sides of a `zwp_text_input_v3` object know of it. -/
structure TextInputTalk where
  entered : Option ObjectId
  enabled : Bool
  pendingEnabled : Option Bool
  commits : Nat
  deriving DecidableEq

namespace TextInputTalk

def start : TextInputTalk := { entered := none, enabled := false, pendingEnabled := none, commits := 0 }

/-- The object may be told to type. -/
def typing (t : TextInputTalk) : Bool := t.entered.isSome && t.enabled

/-- The object enters and leaves surfaces in turn. It is told to type only in between, and only when its
client has enabled it, and `done` has the number of the client's commits, up to `u32::MAX`. -/
def next (t : TextInputTalk) : TextInputItem → Option TextInputTalk
  | .asked .enable => some { t with pendingEnabled := some true }
  | .asked .disable => some { t with pendingEnabled := some false }
  | .asked .commit =>
    some { t with
      enabled := t.pendingEnabled.getD t.enabled, pendingEnabled := none, commits := t.commits + 1 }
  | .asked .describe | .asked .destroy => some t
  | .enter surface => if t.entered = none then some { t with entered := some surface } else none
  | .leave surface => if t.entered = some surface then some { t with entered := none } else none
  | .preeditString .. | .commitString _ => if t.typing then some t else none
  | .done serial => if t.typing ∧ serial.toNat = min t.commits (2 ^ 32 - 1) then some t else none

end TextInputTalk

namespace SeatTextInput

/-- The compositor and the protocol agree on the object. -/
structure Follows (input : SeatTextInput) (t : TextInputTalk) : Prop where
  entered : t.entered = input.focusedSurface
  enabled : t.enabled = input.input.enabled
  pendingEnabled : t.pendingEnabled = input.input.pendingEnabled
  serial : input.input.serial.toNat = min t.commits (2 ^ 32 - 1)

/-- All that went over the object was allowed. -/
def Conforms (input : SeatTextInput) : Prop :=
  ∃ t, input.talk.foldlM TextInputTalk.next .start = some t ∧ (input.alive = true → input.Follows t)

/-- The object has entered the active surface, if that is a surface of its client. -/
def Placed (clientOf : ObjectId → WaylandClient) (active : Option ObjectId) (input : SeatTextInput) :
    Prop :=
  input.alive = true → input.focusedSurface = active.filter fun s => clientOf s = input.input.client

variable {clientOf : ObjectId → WaylandClient} {active : Option ObjectId} {input input' : SeatTextInput}

@[simp] theorem alive_tell (items : List TextInputItem) : (input.tell items).alive = input.alive := by
  unfold tell
  split <;> rfl

@[simp] theorem focusedSurface_tell (items : List TextInputItem) :
    (input.tell items).focusedSurface = input.focusedSurface := by
  unfold tell
  split <;> rfl

@[simp] theorem input_tell (items : List TextInputItem) : (input.tell items).input = input.input := by
  unfold tell
  split <;> rfl

/-- The rule for whatever changes an object and tells it so. -/
theorem Conforms.tell {items : List TextInputItem} (h : input.Conforms) (htalk : input'.talk = input.talk)
    (halive : input'.alive = input.alive)
    (hnext : input.alive = true → ∀ t, input.Follows t →
      ∃ t', items.foldlM TextInputTalk.next t = some t' ∧ input'.Follows t') :
    (input'.tell items).Conforms := by
  obtain ⟨t, ht, hfollows⟩ := h
  cases hlive : input.alive with
  | false =>
    have hdead : input'.tell items = input' := by simp [SeatTextInput.tell, halive, hlive]
    rw [hdead]
    exact ⟨t, htalk ▸ ht, fun h => by simp [halive, hlive] at h⟩
  | true =>
    obtain ⟨t', ht', hfollows'⟩ := hnext hlive t (hfollows hlive)
    have htold : input'.tell items = { input' with talk := input'.talk ++ items } := by
      simp [SeatTextInput.tell, halive, hlive]
    rw [htold]
    refine ⟨t', ?_, fun _ => { hfollows' with }⟩
    rw [List.foldlM_append, htalk, ht]
    exact ht'

@[simp] theorem focusedSurface_leave : input.leave.focusedSurface = none := by
  unfold leave
  split
  · exact focusedSurface_tell _
  · assumption

@[simp] theorem alive_leave : input.leave.alive = input.alive := by
  unfold leave
  split
  · exact alive_tell _
  · rfl

@[simp] theorem input_leave : input.leave.input = input.input := by
  unfold leave
  split
  · exact input_tell _
  · rfl

theorem Conforms.leave (h : input.Conforms) : input.leave.Conforms := by
  unfold SeatTextInput.leave
  split
  · rename_i surface hsurface
    refine h.tell rfl rfl fun _ t ht => ⟨{ t with entered := none }, ?_, { ht with entered := rfl }⟩
    simp [TextInputTalk.next, ht.entered, hsurface]
  · exact h

theorem Conforms.enter (h : input.Conforms) (hout : input.focusedSurface = none) (surface : ObjectId) :
    (input.enter surface).Conforms := by
  refine h.tell rfl rfl fun _ t ht =>
    ⟨{ t with entered := some surface }, ?_, { ht with entered := rfl }⟩
  simp [TextInputTalk.next, ht.entered, hout]

/-- `set_text_input_focus` puts the object where it belongs, wherever it was. -/
theorem Conforms.focus (h : input.Conforms) (surface : ObjectId) :
    (input.focus (clientOf surface) surface).Conforms ∧
      (input.focus (clientOf surface) surface).Placed clientOf (some surface) := by
  unfold SeatTextInput.focus
  split
  · rename_i hdead
    exact ⟨h, fun halive => by simp [halive] at hdead⟩
  · split
    · rename_i hother
      exact ⟨h.leave, fun _ => by simp [Option.filter_some, Ne.symm hother]⟩
    · rename_i hclient
      have hclient : clientOf surface = input.input.client := (not_not.1 hclient).symm
      split
      · rename_i hthere
        exact ⟨h, fun _ => by simp [Option.filter_some, hthere, hclient]⟩
      · refine ⟨h.leave.enter focusedSurface_leave surface, fun _ => ?_⟩
        simp [SeatTextInput.enter, Option.filter_some, hclient]

theorem Conforms.request (h : input.Conforms) (request : TextInputRequest) :
    (input.request request).1.Conforms := by
  refine h.tell rfl rfl fun _ t ht => ?_
  have hserial := ht.serial
  cases request with
  | enable => exact ⟨_, rfl, { ht with pendingEnabled := rfl }⟩
  | disable => exact ⟨_, rfl, { ht with pendingEnabled := rfl }⟩
  | describe => exact ⟨_, rfl, { ht with }⟩
  | destroy => exact ⟨_, rfl, { ht with }⟩
  | commit =>
    refine ⟨_, rfl, ?_⟩
    have hcount : (if input.input.serial = UInt32.ofNat (2 ^ 32 - 1) then input.input.serial
        else input.input.serial + 1).toNat = min (t.commits + 1) (2 ^ 32 - 1) := by
      split
      · rename_i hlast
        rw [hlast] at hserial ⊢
        simp at hserial ⊢
        omega
      · rename_i hlast
        have hsmall : input.input.serial.toNat ≠ 2 ^ 32 - 1 := fun h => hlast (UInt32.toNat_inj.1 h)
        have hone : (1 : UInt32).toNat = 1 := rfl
        rw [UInt32.toNat_add, hone]
        omega
    cases hpending : input.input.pendingEnabled with
    | none =>
      exact ⟨ht.entered, by simp [ht.pendingEnabled, hpending, ht.enabled], rfl, hcount⟩
    | some enabled =>
      exact ⟨ht.entered, by simp [ht.pendingEnabled, hpending], rfl, hcount⟩

theorem client_request (request : TextInputRequest) :
    (input.request request).1.input.client = input.input.client := by
  simp only [SeatTextInput.request, input_tell]
  cases request with
  | commit =>
    simp only [VBoxTextInput.request]
    split <;> rfl
  | enable | disable | describe | destroy => rfl

end SeatTextInput

/-! ## What the seat owes the active window -/

namespace App

/-- No window has an id that is still to be given away. Past the last id nothing is said. -/
def Fresh (app : App) : Prop :=
  app.nextWindowId.toNat < 2 ^ 64 - 1 →
    ∀ id surface, app.windowSurface id = some surface → id < app.nextWindowId

/-- The active window is the one with the `Activated` flag. -/
def Marked (app : App) : Prop :=
  app.nextWindowId.toNat < 2 ^ 64 - 1 → ∀ id window, app.windows.get? id = some window →
    window.toplevel.activated = decide (app.activeWindowId = some id)

end App

namespace Seat

variable (clientOf : ObjectId → WaylandClient)

/-- What holds whether or not anything has the focus. -/
structure Steady (seat : Seat) : Prop where
  conform : ∀ input ∈ seat.textInputs, input.Conforms
  fresh : seat.app.Fresh
  reaches : ∀ d ∈ seat.log, ∀ surface, d.window = some surface → d.surface = some surface

structure Agrees (seat : Seat) : Prop extends Steady seat where
  keyboard : seat.keyboardFocus = seat.app.activeSurface
  clipboard : seat.clipboardFocus = seat.app.activeSurface
  active : ∀ id, seat.app.activeWindowId = some id → (seat.app.windowSurface id).isSome
  placed : ∀ input ∈ seat.textInputs, input.Placed clientOf seat.app.activeSurface
  marked : seat.app.Marked

end Seat

namespace App

variable {app app' : App} {env : Env} {surface : ObjectId} {id : UInt64}

theorem SameFocus.windowSurface (h : SameFocus app app') (id : UInt64) :
    app'.windowSurface id = app.windowSurface id := by
  have hsurface := congrArg (Option.map Prod.fst) (h.windows id)
  rwa [Option.map_map, Option.map_map] at hsurface

theorem activeSurface_eq (app : App) : app.activeSurface = app.activeWindowId.bind app.windowSurface :=
  rfl

theorem SameFocus.activeSurface (h : SameFocus app app') : app'.activeSurface = app.activeSurface := by
  rw [activeSurface_eq, activeSurface_eq, h.activeWindowId]
  exact congrArg _ (funext h.windowSurface)

theorem Fresh.of_same (hfresh : app.Fresh) (hnext : app'.nextWindowId = app.nextWindowId)
    (h : ∀ id surface, app'.windowSurface id = some surface → app.windowSurface id = some surface) :
    app'.Fresh := by
  intro hroom id surface hsurface
  rw [hnext] at hroom ⊢
  exact hfresh hroom id surface (h id surface hsurface)

theorem SameFocus.marked (h : SameFocus app app') (hmarked : app.Marked) : app'.Marked := by
  intro hroom id window' hwindow'
  rw [h.nextWindowId] at hroom
  have hsame := h.windows id
  rw [hwindow', Option.map_some, eq_comm, Option.map_eq_some_iff] at hsame
  obtain ⟨window, hwindow, heq⟩ := hsame
  rw [h.activeWindowId, ← hmarked hroom id window hwindow]
  exact (congrArg Prod.snd heq).symm

end App

namespace Seat

variable {clientOf} {seat seat' : Seat} {id : UInt64}

theorem Agrees.same (h : seat.Agrees clientOf) {app : App} (hsame : App.SameFocus seat.app app) :
    Agrees clientOf { seat with app } where
  conform := h.conform
  fresh := h.fresh.of_same hsame.nextWindowId fun id surface hsurface =>
    (hsame.windowSurface id).symm.trans hsurface
  reaches := h.reaches
  keyboard := h.keyboard.trans hsame.activeSurface.symm
  clipboard := h.clipboard.trans hsame.activeSurface.symm
  active id hid := by
    rw [hsame.windowSurface]
    exact h.active id (hsame.activeWindowId.symm.trans hid)
  placed := by
    rw [hsame.activeSurface]
    exact h.placed
  marked := hsame.marked h.marked

/-! ## The focus moves -/

theorem activeSurface_focusWindow {surface : ObjectId} (h : seat.app.windowSurface id = some surface) :
    (seat.app.focusWindow id).activeSurface = some surface := by
  rw [App.activeSurface_eq, App.activeWindowId_focusWindow h, Option.bind_some,
    App.windowSurface_focusWindow, h]

theorem nextWindowId_focusWindow (app : App) (id : UInt64) :
    (app.focusWindow id).nextWindowId = app.nextWindowId := (App.kept_focusWindow app id).nextWindowId

/-- The flags are right after the focus has moved, and were right before if it did not. -/
theorem marked_focusWindow {app : App} {surface : ObjectId} (h : app.windowSurface id = some surface)
    (hmarked : app.activeWindowId = some id → app.Marked) : (app.focusWindow id).Marked := by
  obtain ⟨active, hactive, -⟩ := Option.map_eq_some_iff.1 h
  intro hroom i window hwindow
  rw [nextWindowId_focusWindow] at hroom
  rw [App.activeWindowId_focusWindow h]
  by_cases hsame : app.activeWindowId = some id
  · have hfocus : app.focusWindow id = { app with activeWindowId := some id } := by
      simp only [App.focusWindow, hactive, hsame, ne_eq, not_true, if_false]
    rw [hfocus] at hwindow
    rw [hmarked hsame hroom i window hwindow, hsame]
  · have hfocus : app.focusWindow id = { app with activeWindowId := some id }.setToplevelActivation
        (some id) := by
      simp only [App.focusWindow, hactive, ne_eq, hsame, not_false_eq_true, if_true]
    rw [hfocus] at hwindow
    simp only [App.setToplevelActivation, Table.get?_mapValues] at hwindow
    obtain ⟨window, -, rfl⟩ := Option.map_eq_some_iff.1 hwindow
    simp only [eq_comm]

/-- `focus_window` sets everything right, whatever had the focus. -/
theorem Steady.focusWindow (h : seat.Steady) {surface : ObjectId}
    (hsurface : seat.app.windowSurface id = some surface)
    (hmarked : seat.app.activeWindowId = some id → seat.app.Marked) :
    Agrees clientOf (seat.focusWindow clientOf id) := by
  have hactive := activeSurface_focusWindow hsurface
  have hfocus : seat.focusWindow clientOf id = { seat with
      app := seat.app.focusWindow id, keyboardFocus := some surface, clipboardFocus := some surface
      textInputs := seat.textInputs.map fun input => input.focus (clientOf surface) surface } := by
    simp only [Seat.focusWindow, hsurface, setTextInputFocus, hactive]
  rw [hfocus]
  exact
    { conform := List.forall_mem_map.2 fun input hinput => ((h.conform input hinput).focus surface).1
      fresh := h.fresh.of_same (nextWindowId_focusWindow _ _) fun i s hs => by
        rwa [App.windowSurface_focusWindow] at hs
      reaches := h.reaches
      keyboard := hactive.symm
      clipboard := hactive.symm
      active := fun i hi => by
        rw [App.activeWindowId_focusWindow hsurface] at hi
        cases hi
        rw [App.windowSurface_focusWindow, hsurface]
        rfl
      placed := by
        rw [hactive]
        exact List.forall_mem_map.2 fun input hinput => ((h.conform input hinput).focus surface).2
      marked := marked_focusWindow hsurface hmarked }

theorem Agrees.focusWindow (h : seat.Agrees clientOf) (id : UInt64) :
    Agrees clientOf (seat.focusWindow clientOf id) := by
  cases hsurface : seat.app.windowSurface id with
  | none =>
    rw [Seat.focusWindow, hsurface]
    exact h
  | some surface => exact h.toSteady.focusWindow hsurface fun _ => h.marked

theorem Steady.clearFocus (h : seat.Steady) (hactive : seat.app.activeWindowId = some id) :
    Agrees clientOf seat.clearFocus := by
  have hfocus : seat.app.clearFocus = { seat.app with activeWindowId := none }.setToplevelActivation none := by
    simp only [App.clearFocus, hactive]
  have hnone : seat.app.clearFocus.activeSurface = none := by
    rw [hfocus]
    rfl
  exact
    { conform := List.forall_mem_map.2 fun input hinput => (h.conform input hinput).leave
      fresh := h.fresh.of_same (by rw [app_clearFocus, hfocus]; rfl) fun i s hs => by
        rw [app_clearFocus, hfocus] at hs
        exact (App.windowSurface_setToplevelActivation _ _ i).symm.trans hs
      reaches := h.reaches
      keyboard := hnone.symm
      clipboard := hnone.symm
      active := fun i hi => by
        rw [app_clearFocus, hfocus] at hi
        cases hi
      placed := by
        rw [app_clearFocus, hnone]
        exact List.forall_mem_map.2 fun input _ _ => SeatTextInput.focusedSurface_leave
      marked := by
        rw [app_clearFocus, hfocus]
        intro hroom i window hwindow
        simp only [App.setToplevelActivation, Table.get?_mapValues] at hwindow
        obtain ⟨window, -, rfl⟩ := Option.map_eq_some_iff.1 hwindow
        rfl }

/-! ## Windows come and go -/

theorem windowSurface_insertToplevel (app : App) (surface : ObjectId) (i : UInt64) :
    (app.insertToplevel surface).windowSurface i =
      if i = app.nextWindowId then some surface else app.windowSurface i := by
  simp only [App.windowSurface, App.insertToplevel, Table.get?_insert]
  split <;> rfl

theorem Agrees.newToplevel (h : seat.Agrees clientOf) (surface : ObjectId) (title appId : String) :
    Agrees clientOf (seat.newToplevel clientOf surface title appId) := by
  have hnext := App.toNat_saturatingAdd_one seat.app.nextWindowId
  have hroom_of {n : Nat} (hroom : (seat.app.insertToplevel surface).nextWindowId.toNat < n) :
      (saturatingAdd seat.app.nextWindowId 1).toNat < n := hroom
  have hfresh : (seat.app.insertToplevel surface).Fresh := by
    intro hroom i s hs
    have hroom := hroom_of hroom
    show i < saturatingAdd seat.app.nextWindowId 1
    rw [windowSurface_insertToplevel] at hs
    split at hs
    · rename_i hi
      rw [hi, UInt64.lt_iff_toNat_lt]
      omega
    · have hlt := h.fresh (by omega) i s hs
      rw [UInt64.lt_iff_toNat_lt] at hlt ⊢
      omega
  have hsteady : Steady { seat with app := seat.app.insertToplevel surface } :=
    ⟨h.conform, hfresh, h.reaches⟩
  have hmarked : seat.app.activeWindowId = some seat.app.nextWindowId →
      (seat.app.insertToplevel surface).Marked := by
    -- the new window is not the active one yet, as long as its id is its own
    intro hactive hroom
    have hroom := hroom_of hroom
    obtain ⟨s, hs⟩ := Option.isSome_iff_exists.1 (h.active _ hactive)
    have hlt := h.fresh (by omega) _ s hs
    exact absurd hlt (UInt64.lt_irrefl _)
  have hthere : (seat.app.insertToplevel surface).windowSurface seat.app.nextWindowId = some surface := by
    simp [windowSurface_insertToplevel]
  exact Agrees.same (hsteady.focusWindow hthere hmarked) (.enqueueMessage _ _)

theorem windowSurface_removeWindow (app : App) (surface : ObjectId) (id i : UInt64) :
    (app.removeWindow surface id).windowSurface i = if i = id then none else app.windowSurface i := by
  simp only [App.windowSurface, App.removeWindow, Table.get?_remove]
  split <;> rfl

theorem Steady.removeWindow (h : seat.Steady) (surface : ObjectId) (id : UInt64) :
    Steady { seat with app := seat.app.removeWindow surface id } := by
  refine ⟨h.conform, h.fresh.of_same rfl fun i s hs => ?_, h.reaches⟩
  rw [windowSurface_removeWindow] at hs
  split at hs
  · cases hs
  · exact hs

/-- The focus goes to a window that is there, or nowhere. -/
theorem Agrees.closeActive (h : seat.Agrees clientOf) (env : Env) (surface : ObjectId)
    (hactive : seat.app.activeWindowId = some id) :
    Agrees clientOf ({ seat with app := seat.app.removeWindow surface id }.focusNext clientOf env) := by
  have hsteady := h.toSteady.removeWindow surface id
  unfold Seat.focusNext
  split
  · rename_i nextId hnext
    have hthere := List.find?_some hnext
    obtain ⟨window, hwindow⟩ := (Table.contains_iff _ _).1 hthere
    have hsurface : (seat.app.removeWindow surface id).windowSurface nextId = some window.surface := by
      rw [App.windowSurface, hwindow]
      rfl
    refine hsteady.focusWindow hsurface fun hsame => ?_
    have hid : nextId = id := Option.some.inj (hsame.symm.trans hactive)
    simp [windowSurface_removeWindow, hid] at hsurface
  · exact hsteady.clearFocus hactive

theorem Agrees.closeOther (h : seat.Agrees clientOf) (surface : ObjectId)
    (hactive : seat.app.activeWindowId ≠ some id) :
    Agrees clientOf { seat with app := seat.app.removeWindow surface id } := by
  have hkept : ∀ i, seat.app.activeWindowId = some i →
      (seat.app.removeWindow surface id).windowSurface i = seat.app.windowSurface i := by
    intro i hi
    rw [windowSurface_removeWindow, if_neg]
    rintro rfl
    exact hactive hi
  have hsurface : (seat.app.removeWindow surface id).activeSurface = seat.app.activeSurface := by
    rw [App.activeSurface_eq, App.activeSurface_eq]
    show seat.app.activeWindowId.bind _ = _
    cases hi : seat.app.activeWindowId with
    | none => rfl
    | some i => exact hkept i hi
  exact
    { h.toSteady.removeWindow surface id with
      keyboard := h.keyboard.trans hsurface.symm
      clipboard := h.clipboard.trans hsurface.symm
      active := fun i hi => by
        rw [hkept i hi]
        exact h.active i hi
      placed := by
        rw [hsurface]
        exact h.placed
      marked := fun hroom i window hwindow => by
        refine h.marked hroom i window ?_
        simp only [App.removeWindow, Table.get?_remove] at hwindow
        split at hwindow
        · cases hwindow
        · exact hwindow }

theorem Agrees.toplevelDestroyed (h : seat.Agrees clientOf) (env : Env) (surface : ObjectId) :
    Agrees clientOf (seat.toplevelDestroyed clientOf env surface) := by
  unfold Seat.toplevelDestroyed
  split
  · exact h
  · rename_i id _
    refine Agrees.same ?_ (.enqueueMessage _ _)
    dsimp only
    split
    · rename_i hactive
      exact h.closeActive env surface hactive
    · rename_i hactive
      exact h.closeOther surface hactive

/-! ## Keys, text and requests -/

theorem Agrees.deliverKey (h : seat.Agrees clientOf) (hserves : seat.app.Serves id) (keycode : UInt32)
    (state : InputKeyState) : Agrees clientOf (seat.deliverKey id keycode state) := by
  refine { h with reaches := List.forall_mem_append.2 ⟨h.reaches, ?_⟩ }
  rw [List.forall_mem_singleton]
  intro surface hsurface
  exact h.keyboard.trans (hserves surface hsurface)

theorem typing_follows {input : SeatTextInput} {t : TextInputTalk} {text : TextInputItem}
    (htext : text.IsText) (hfollows : input.Follows t) (htyping : t.typing = true) :
    [text, .done input.input.serial].foldlM TextInputTalk.next t = some t := by
  have hserial := hfollows.serial
  cases text with
  | commitString | preeditString => simp [TextInputTalk.next, htyping, hserial]
  | _ => cases htext

theorem Agrees.deliver (h : seat.Agrees clientOf) (hserves : seat.app.Serves id) (item : SeatItem)
    {text : TextInputItem} (htext : text.IsText) :
    Agrees clientOf (seat.deliver clientOf id item fun input => [text, .done input.serial]).2 := by
  unfold Seat.deliver
  split
  · exact h
  · rename_i surface hactive
    have hplaced : ∀ input ∈ seat.textInputs, input.input.client = clientOf surface → input.alive = true →
        input.focusedSurface = some surface := by
      intro input hinput hclient halive
      rw [h.placed input hinput halive, hactive, Option.filter_some, hclient]
      simp
    refine { h with conform := List.forall_mem_map.2 fun input hinput => ?_,
                    reaches := List.forall_mem_append.2 ⟨h.reaches, ?_⟩,
                    placed := List.forall_mem_map.2 fun input hinput => ?_ }
    · split
      · rename_i henabled
        simp only [Bool.and_eq_true, decide_eq_true_eq] at henabled
        refine (h.conform input hinput).tell rfl rfl fun halive t ht => ⟨t, typing_follows htext ht ?_, ht⟩
        rw [TextInputTalk.typing, ht.entered, ht.enabled, hplaced input hinput henabled.1 halive, henabled.2]
        rfl
      · exact h.conform input hinput
    · intro d hd s hs
      obtain ⟨input, hinput, rfl⟩ := List.mem_map.1 hd
      obtain ⟨hmem, henabled⟩ := List.mem_filter.1 hinput
      simp only [Bool.and_eq_true, decide_eq_true_eq] at henabled
      rw [← hserves s hs, hactive]
      exact hplaced input hmem henabled.1.1 henabled.2
    · dsimp only
      split
      · intro halive
        rw [SeatTextInput.alive_tell] at halive
        simpa using h.placed input hinput halive
      · exact h.placed input hinput

theorem mem_requestFirst {resource : Nat} {request : TextInputRequest} {inputs : List SeatTextInput}
    {input : SeatTextInput} (h : input ∈ (SeatTextInput.requestFirst resource request inputs).1) :
    ∃ old ∈ inputs, input = old ∨ input = (old.request request).1 := by
  induction inputs with
  | nil => cases h
  | cons first inputs ih =>
    rw [SeatTextInput.requestFirst] at h
    split at h
    · rcases List.mem_cons.1 h with rfl | h
      · exact ⟨first, List.mem_cons_self, .inr rfl⟩
      · exact ⟨input, List.mem_cons_of_mem _ h, .inl rfl⟩
    · rcases List.mem_cons.1 h with rfl | h
      · exact ⟨input, List.mem_cons_self, .inl rfl⟩
      · obtain ⟨old, hold, heq⟩ := ih h
        exact ⟨old, List.mem_cons_of_mem _ hold, heq⟩

/-- A move that only touches the text inputs. -/
theorem Agrees.textInputs (h : seat.Agrees clientOf) {textInputs : List SeatTextInput}
    (hinputs : ∀ input ∈ textInputs, input.Conforms ∧ input.Placed clientOf seat.app.activeSurface) :
    Agrees clientOf { seat with textInputs } :=
  { h with
    conform := fun input hinput => (hinputs input hinput).1
    placed := fun input hinput => (hinputs input hinput).2 }

theorem Agrees.asked (h : seat.Agrees clientOf) (resource : Nat) (request : TextInputRequest) :
    Agrees clientOf
      { seat with textInputs := (SeatTextInput.requestFirst resource request seat.textInputs).1 } := by
  refine h.textInputs fun input hinput => ?_
  obtain ⟨old, hold, rfl | rfl⟩ := mem_requestFirst hinput
  · exact ⟨h.conform _ hold, h.placed _ hold⟩
  · refine ⟨(h.conform old hold).request request, fun halive => ?_⟩
    have hplaced := h.placed old hold (by simpa [SeatTextInput.request] using halive)
    rw [SeatTextInput.client_request]
    simpa [SeatTextInput.request] using hplaced

theorem conforms_new (resource : Nat) (client : WaylandClient) :
    SeatTextInput.Conforms
      { input := { resource, client, serial := 0, enabled := false, pendingEnabled := none }
        focusedSurface := none, alive := true, talk := [] } :=
  ⟨.start, rfl, fun _ => ⟨rfl, rfl, rfl, rfl⟩⟩

theorem Agrees.register (h : seat.Agrees clientOf) (resource : Nat) (client : WaylandClient) :
    Agrees clientOf (seat.registerTextInput clientOf resource client) := by
  have hnew := conforms_new resource client
  refine h.textInputs (List.forall_mem_append.2
    ⟨fun input hinput => ⟨h.conform input hinput, h.placed input hinput⟩, ?_⟩)
  rw [List.forall_mem_singleton]
  cases hactive : seat.app.activeSurface with
  | none => exact ⟨hnew, fun _ => rfl⟩
  | some surface =>
    dsimp only
    split
    · rename_i hclient
      refine ⟨hnew.enter rfl surface, fun _ => ?_⟩
      simp [SeatTextInput.enter, Option.filter_some, hclient]
    · rename_i hclient
      exact ⟨hnew, fun _ => by simp [Option.filter_some, Ne.symm hclient]⟩

theorem Agrees.move (h : seat.Agrees clientOf) (hmove : Move clientOf seat seat') :
    seat'.Agrees clientOf := by
  cases hmove with
  | same hsame => exact h.same hsame
  | focus id => exact h.focusWindow id
  | clear hactive => exact h.toSteady.clearFocus hactive
  | key keycode state hserves => exact h.deliverKey hserves keycode state
  | deliver item text hserves htext => exact h.deliver hserves item htext
  | wait => exact { h with }
  | newToplevel surface title appId => exact h.newToplevel surface title appId
  | toplevelDestroyed env surface => exact h.toplevelDestroyed env surface
  | asked resource request => exact h.asked resource request
  | register resource client => exact h.register resource client
  | died resource =>
    refine h.textInputs (List.forall_mem_map.2 fun input hinput => ?_)
    split
    · obtain ⟨t, ht, -⟩ := h.conform input hinput
      exact ⟨⟨t, ht, nofun⟩, nofun⟩
    · exact ⟨h.conform input hinput, h.placed input hinput⟩
  | destroyed resource =>
    refine h.textInputs fun input hinput => ?_
    have hmem := List.mem_of_mem_filter hinput
    exact ⟨h.conform input hmem, h.placed input hmem⟩

/-! ## Sessions -/

theorem agrees_start (req : ViewRequest) : Agrees clientOf (start req) where
  conform := nofun
  fresh := nofun
  reaches := nofun
  keyboard := rfl
  clipboard := rfl
  active := nofun
  placed := nofun
  marked := nofun

theorem agrees_run {req : ViewRequest} {events : List SeatEvent}
    (h : (start req).run clientOf events = .ok seat) : Agrees clientOf seat := by
  have hmoves := run_moves h
  clear h
  induction hmoves with
  | refl => exact agrees_start req
  | tail _ hmove ih => exact ih.move hmove

/-- **The focus is one.** In every state of a session, whatever the apps, the host and the text inputs
did: the keyboard, the clipboard and the text inputs have their focus on the surface of the active
window, and it is the window that is told so, unless the ids of windows have run out. -/
theorem focus_agrees {req : ViewRequest} {events : List SeatEvent}
    (h : (start req).run clientOf events = .ok seat) :
    seat.keyboardFocus = seat.app.activeSurface ∧ seat.clipboardFocus = seat.app.activeSurface ∧
      (seat.app.activeWindowId.isSome → seat.app.activeSurface.isSome) ∧
      (∀ input ∈ seat.textInputs, input.alive = true → input.focusedSurface =
        seat.app.activeSurface.filter fun surface => clientOf surface = input.input.client) ∧
      (seat.app.nextWindowId.toNat < 2 ^ 64 - 1 → ∀ id window, seat.app.windows.get? id = some window →
        (window.toplevel.activated = true ↔ seat.app.activeWindowId = some id)) := by
  have hagrees := agrees_run h
  refine ⟨hagrees.keyboard, hagrees.clipboard, fun hactive => ?_, hagrees.placed,
    fun hroom id window hwindow => ?_⟩
  · obtain ⟨id, hid⟩ := Option.isSome_iff_exists.1 hactive
    rw [App.activeSurface_eq, hid]
    exact hagrees.active id hid
  · rw [hagrees.marked hroom id window hwindow, decide_eq_true_iff]

section TwoApps

/-- Every surface has its own client. -/
def ownClient (surface : ObjectId) : WaylandClient := ⟨surface⟩

/-- Two apps open a window each, the first one with a text input that it enables. The host types in both
windows, and the first window is closed. -/
def twoApps : List SeatEvent :=
  [.call ⟨App.bareEnv, .newToplevel 0 "first" "first"⟩, .getTextInput 7 ⟨0⟩, .request 7 .enable,
    .request 7 .commit, .call ⟨App.bareEnv, .newToplevel 1 "second" "second"⟩,
    .call ⟨App.bareEnv, .input (.text 1 "é")⟩, .call ⟨App.bareEnv, .input (.key 2 30 .pressed)⟩,
    .call ⟨App.bareEnv, .toplevelDestroyed 0⟩, .call ⟨App.bareEnv, .input (.key 1 30 .released)⟩]

theorem focus_agrees_twoApps : ∃ seat, (start ⟨"vbox", 640, 480⟩).run ownClient twoApps = .ok seat ∧
    seat.keyboardFocus = some 1 ∧ seat.keyboardFocus = seat.app.activeSurface :=
  ⟨_, rfl, rfl,
    (focus_agrees (rfl : (start ⟨"vbox", 640, 480⟩).run ownClient twoApps = .ok _)).1⟩

end TwoApps

/-- **Text inputs hear what the protocol allows**: a text input enters and leaves surfaces in turn, it is
told to type only in between and while its client has it enabled, and every `done` has the number of
the client's commits, up to `u32::MAX`. At any time it has entered the active surface, if that is a
surface of its client, and no other. -/
theorem text_inputs_conform {req : ViewRequest} {events : List SeatEvent}
    (h : (start req).run clientOf events = .ok seat) : ∀ input ∈ seat.textInputs, ∃ t,
      input.talk.foldlM TextInputTalk.next .start = some t ∧
        (input.alive = true → t.entered =
          seat.app.activeSurface.filter fun surface => clientOf surface = input.input.client) := by
  intro input hinput
  obtain ⟨t, ht, hfollows⟩ := (agrees_run h).conform input hinput
  refine ⟨t, ht, fun halive => ?_⟩
  rw [(hfollows halive).entered, (agrees_run h).placed input hinput halive]

theorem text_inputs_conform_twoApps : ∃ seat, (start ⟨"vbox", 640, 480⟩).run ownClient twoApps = .ok seat ∧
    (∃ input ∈ seat.textInputs, input.talk.length = 8) ∧
    ∀ input ∈ seat.textInputs, ∃ t, input.talk.foldlM TextInputTalk.next .start = some t :=
  ⟨_, rfl, ⟨_, List.mem_cons_self, rfl⟩, fun input hinput =>
    (text_inputs_conform (rfl : (start ⟨"vbox", 640, 480⟩).run ownClient twoApps = .ok _) input hinput).imp
      fun _ h => h.1⟩

/-- **What is typed in an open window reaches that window**: of all keys and texts that were delivered in
a session, none went to the surface of another window than the one it was for, unless that window was
closed before. -/
theorem input_reaches_window {req : ViewRequest} {events : List SeatEvent}
    (h : (start req).run clientOf events = .ok seat) :
    ∀ d ∈ seat.log, ∀ surface, d.window = some surface → d.surface = some surface :=
  (agrees_run h).reaches

/-- The last key is for a window that is closed. The active window gets it. -/
theorem input_reaches_window_twoApps : ∃ seat,
    (start ⟨"vbox", 640, 480⟩).run ownClient twoApps = .ok seat ∧
      seat.log.map (fun d => (d.window, d.surface)) = [(some 0, some 0), (some 1, some 1), (none, some 1)] ∧
      ∀ d ∈ seat.log, ∀ surface, d.window = some surface → d.surface = some surface :=
  ⟨_, rfl, rfl,
    input_reaches_window (rfl : (start ⟨"vbox", 640, 480⟩).run ownClient twoApps = .ok _)⟩

end Seat
end VBox.Compositor
