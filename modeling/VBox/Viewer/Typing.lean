import VBox.Viewer.WindowComposer

/-!
# Viewer.Typing

What a user types on a window, from the host's keys and its input method to the guest
(`handle_ime` and `handle_keyboard` in `crates/client/src/viewer/app.rs`). Each
window has a composer of its own that holds the last characters back; keys, the texts of keys and
those of the input method all have to get past it.

* `keyWriting`, `imeWriting`: what an event is taken for.
* `Typed`: what was sent in a step, with what the composer holds, is what was typed.
* `typed_keyboard`, `typed_ime`: the two handlers type what an event is taken for.
-/

namespace VBox

open Hangul (committed)
open Tape (Passes Writing Stroke)

/-! ## The input method of the host -/

inductive Ime where
  | enabled
  | preedit (text : String) (cursor : Option (Nat × Nat))
  | commit (text : String)
  | disabled

def Ime.isText : Ime → Bool
  | .preedit _ _ => true
  | .commit _ => true
  | _ => false

def imeCursorRange (cursor : Option (Nat × Nat)) : Int32 × Int32 :=
  match cursor with
  | none => (-1, -1)
  | some (first, last) => (usizeToI32 first, usizeToI32 last)

namespace KeyboardApp

variable {κ : Type} (ime : Composer κ)

/-- With `release_guest_ctrl`. -/
def clearShortcutModifierCacheAndCtrl (app : KeyboardApp κ) (id : UInt64) : KeyboardApp κ :=
  let app := { app with modifiers := .empty }
  let app := { app with keys := (app.keys.releaseGuestKeyIfPressed keyLeftctrl).2 }
  app.flushComposer ime id

/-- What `handle_ime` does with an event that comes through. -/
def receiveIme (app : KeyboardApp κ) (id : UInt64) : Ime → KeyboardApp κ
  | .enabled =>
    let app :=
      if app.modifiers.superKey || app.modifiers.controlKey then
        app.clearShortcutModifierCacheAndCtrl ime id
      else app
    app.flushComposer ime id
  | .preedit text cursor =>
    if ime.canCompose text || (text.isEmpty && !app.composerIsEmpty ime id) then app
    else
      let (first, last) := imeCursorRange cursor
      (app.flushComposer ime id).sendInput (.preedit id text first last)
  | .commit text => if text.isEmpty then app else app.sendHostText ime id text
  | .disabled => (app.flushComposer ime id).sendInput (.preedit id "" (-1) (-1))

/-- A text is ignored while Command or Control is held for the guest. -/
def handleIme (app : KeyboardApp κ) (id : UInt64) (event : Ime) : KeyboardApp κ :=
  let app :=
    if shortcutModifiersActive app.modifiers ∧ event.isText then
      app.clearStaleShortcutModifiersForText ime id
    else app
  if shortcutModifiersActive app.modifiers ∧ event.isText then app else app.receiveIme ime id event

end KeyboardApp

/-! ## What an event is taken for -/

/-- What is typed: characters that a composer may hold back, and keys of the guest. -/
abbrev GuestWriting := Writing Char UInt32

namespace KeyboardApp

/-- The composer of a window, and nothing for a window that is not there. -/
def held (app : KeyboardApp WindowComposer) (id : UInt64) : List Char :=
  (app.windows.get? id).elim [] fun view => view.composer.held

def shown (app : KeyboardApp WindowComposer) (id : UInt64) : Option String :=
  (app.windows.get? id).bind fun view => view.composer.shown

def textWriting (text : String) : GuestWriting := .text (normalise text.toList)

/-- A press that no shortcut of the viewer itself takes. -/
def plainWriting (app : KeyboardApp WindowComposer) (id : UInt64) (event : KeyEvent) : List GuestWriting :=
  if keyboardCommandModifiersActive app.modifiers then
    if shortcutModifiersActive app.modifiers ∧ app.handleViewShortcut id event.logicalKey then []
    else ((shortcutKeycode event.physicalKey).or (namedKeycode event.logicalKey)).toList.map .key
  else
    match namedKeycode event.logicalKey with
    | some keycode =>
      if keycode = keyBackspace ∧ !app.composerIsEmpty inputComposer id then [.erase]
      else [.key keycode]
    | none =>
      -- a text that can be composed comes from the input method as well
      ((printableKeyboardText event.text).filter fun text => !canCompose text).toList.map textWriting

/-- What a key event adds to what is typed. -/
def keyWriting (app : KeyboardApp WindowComposer) (id : UInt64) (event : KeyEvent) : List GuestWriting :=
  if event.state = .released ∨ (guestModifierKeycode event.physicalKey event.logicalKey).isSome then []
  else if !event.isRepeat && (isWindowDumpShortcut app.modifiers event.logicalKey ||
      isFullscreenShortcut app.modifiers event.logicalKey) then []
  else if isMacosEmojiPickerShortcut event.physicalKey app.modifiers then []
  else if isTerminalNewTabShortcut event app.modifiers (app.targetIsTerminal id) then [.key 20]
  else (app.withTextModifiers inputComposer id event).plainWriting id event

def receivedWriting : Ime → List GuestWriting
  | .commit text => if text.isEmpty then [] else [textWriting text]
  | _ => []

/-- What an event of the input method adds: a text, unless a shortcut is being typed. -/
def imeWriting (app : KeyboardApp WindowComposer) (event : Ime) : List GuestWriting :=
  if event.isText ∧ shortcutModifiersActive app.modifiers ∧
      app.keys.pressedGuestKeys.contains keyLeftctrl then []
  else receivedWriting event

end KeyboardApp

/-! ## What the guest gets -/

/-- What an event is for a window: characters, or a key that is no modifier. -/
def strokesOf (id : UInt64) : InputEvent → List (Stroke Char UInt32)
  | .text id' text => if id' = id then (normalise text.toList).map .char else []
  | .key id' keycode state =>
    if id' = id ∧ state = .pressed ∧ keycode ∉ guestModifierKeycodes then [.key keycode] else []
  | _ => []

def strokes (id : UInt64) (events : List InputEvent) : List (Stroke Char UInt32) :=
  events.flatMap (strokesOf id)

/-- A preedit as it is sent: the text and where the cursor is in it. -/
abbrev Preedit := String × Int32 × Int32

def Preedit.hidden : Preedit := ("", -1, -1)

/-- With the cursor at its end. -/
def Preedit.ofText (text : String) : Preedit :=
  (text, usizeToI32 text.utf8ByteSize, usizeToI32 text.utf8ByteSize)

def preeditOf (id : UInt64) : InputEvent → Option Preedit
  | .preedit id' text cursorBegin cursorEnd =>
    if id' = id then some (text, cursorBegin, cursorEnd) else none
  | _ => none

/-- The preedit of a window after some more events. -/
def preeditSince (id : UInt64) (before : Option Preedit) (events : List InputEvent) : Option Preedit :=
  events.foldl (fun last event => (preeditOf id event).or last) before

@[simp] theorem strokes_nil (id : UInt64) : strokes id [] = [] := rfl

@[simp] theorem strokes_append (id : UInt64) (events events' : List InputEvent) :
    strokes id (events ++ events') = strokes id events ++ strokes id events' := List.flatMap_append

theorem preeditSince_append (id : UInt64) (before : Option Preedit) (events events' : List InputEvent) :
    preeditSince id before (events ++ events') =
      preeditSince id (preeditSince id before events) events' := List.foldl_append

/-- An event that neither writes on a window nor changes its preedit. -/
def Silent (id : UInt64) (event : InputEvent) : Prop :=
  strokesOf id event = [] ∧ preeditOf id event = none

theorem strokes_of_silent {id : UInt64} {events : List InputEvent}
    (h : ∀ event ∈ events, Silent id event) : strokes id events = [] :=
  List.flatMap_eq_nil_iff.mpr fun event hevent => (h event hevent).1

theorem preeditSince_of_silent {id : UInt64} {events : List InputEvent} (before : Option Preedit)
    (h : ∀ event ∈ events, Silent id event) : preeditSince id before events = before := by
  induction events with
  | nil => rfl
  | cons event events ih =>
    have hevent := (h event List.mem_cons_self).2
    rw [preeditSince, List.foldl_cons, hevent, Option.none_or]
    exact ih fun e he => h e (List.mem_cons_of_mem _ he)

theorem silent_released (id id' : UInt64) (keycode : UInt32) :
    Silent id (.key id' keycode .released) := by
  refine ⟨?_, rfl⟩
  rw [strokesOf, if_neg]
  rintro ⟨-, h, -⟩
  cases h

theorem silent_modifier (id id' : UInt64) {keycode : UInt32} (state : InputKeyState)
    (h : keycode ∈ guestModifierKeycodes) : Silent id (.key id' keycode state) :=
  ⟨if_neg fun hkey => hkey.2.2 h, rfl⟩

/-- The preedit that the guest has for a window is what its composer shows; while that shows nothing,
it is nothing or what the input method asked for. -/
def Shows (asked : Preedit → Prop) : Option String → Option Preedit → Prop
  | some text, last => last = some (.ofText text)
  | none, last => ∀ preedit, last = some preedit → preedit = .hidden ∨ asked preedit

/-! ### The actions of a composer -/

variable {id id' : UInt64} {asked : Preedit → Prop}

/-- What one action of a composer sends. -/
def actionInput (id : UInt64) (action : ComposerAction) : List InputEvent :=
  (action.input id).toList

theorem strokes_action (action : ComposerAction) :
    strokes id (actionInput id' action) =
      if id' = id then (normalise (committed [action])).map .char else [] := by
  cases action with
  | commit text =>
    by_cases hempty : text.isEmpty = true
    · obtain rfl := String.isEmpty_iff.mp hempty
      simp [actionInput, ComposerAction.input, committed, Hangul.ComposerAction.committed, normalise,
        Hangul.decomp, Kana.decomp]
    · by_cases h : id' = id <;>
        simp [actionInput, ComposerAction.input, hempty, strokes, strokesOf, h, committed,
          Hangul.ComposerAction.committed]
  | preedit text =>
    cases text <;>
      simp [actionInput, ComposerAction.input, strokes, strokesOf, committed,
        Hangul.ComposerAction.committed, normalise, Hangul.decomp, Kana.decomp]

theorem preeditSince_action_of_ne (h : id' ≠ id) (before : Option Preedit) (action : ComposerAction) :
    preeditSince id before (actionInput id' action) = before := by
  cases action with
  | commit text =>
    by_cases hempty : text.isEmpty = true <;>
      simp [actionInput, ComposerAction.input, hempty, preeditSince, preeditOf]
  | preedit text =>
    cases text <;> simp [actionInput, ComposerAction.input, preeditSince, preeditOf, h]

theorem shows_action {text : Option String} {last : Option Preedit} (h : Shows asked text last)
    (action : ComposerAction) :
    Shows asked (preeditAfter text [action]) (preeditSince id last (actionInput id action)) := by
  cases action with
  | commit text' =>
    by_cases hempty : text'.isEmpty = true <;>
      simpa [actionInput, ComposerAction.input, hempty, preeditSince, preeditOf, preeditAfter] using h
  | preedit text' =>
    cases text' with
    | none =>
      intro preedit hpreedit
      left
      simpa [actionInput, ComposerAction.input, preeditSince, preeditOf, Preedit.hidden] using
        hpreedit.symm
    | some text' =>
      simp [actionInput, ComposerAction.input, preeditSince, preeditOf, preeditAfter, Shows,
        Preedit.ofText]

theorem actions_cons (action : ComposerAction) (actions : List ComposerAction) :
    (action :: actions).filterMap (ComposerAction.input id) =
      actionInput id action ++ actions.filterMap (ComposerAction.input id) := by
  rw [List.filterMap_eq_flatMap_toList, List.flatMap_cons, ← List.filterMap_eq_flatMap_toList]
  rfl

theorem strokes_actions (actions : List ComposerAction) :
    strokes id (actions.filterMap (ComposerAction.input id')) =
      if id' = id then (normalise (committed actions)).map .char else [] := by
  induction actions with
  | nil => simp [committed, normalise, Hangul.decomp, Kana.decomp]
  | cons action actions ih =>
    rw [actions_cons, strokes_append, strokes_action, ih,
      ← List.singleton_append (l := actions), Hangul.committed_append, normalise_append, List.map_append]
    by_cases h : id' = id <;> simp [h]

theorem preeditSince_actions_of_ne (h : id' ≠ id) (before : Option Preedit)
    (actions : List ComposerAction) :
    preeditSince id before (actions.filterMap (ComposerAction.input id')) = before := by
  induction actions generalizing before with
  | nil => rfl
  | cons action actions ih =>
    rw [actions_cons, preeditSince_append, preeditSince_action_of_ne h, ih]

theorem shows_actions (id : UInt64) {text : Option String} {last : Option Preedit}
    (h : Shows asked text last) (actions : List ComposerAction) :
    Shows asked (preeditAfter text actions)
      (preeditSince id last (actions.filterMap (ComposerAction.input id))) := by
  induction actions generalizing text last with
  | nil => exact h
  | cons action actions ih =>
    rw [actions_cons, preeditSince_append, ← List.singleton_append, preeditAfter_append]
    exact ih (shows_action h action)

/-! ## What a step types -/

namespace KeyboardApp

variable {app app' app'' : KeyboardApp WindowComposer} {w : UInt64}
  {writings writings' : List GuestWriting}

/-- `writings` are typed on a window: what is sent to it and what its composer holds afterwards is
what the composer held before and what was typed, and the guest is still shown what is held. -/
def Sends (id : UInt64) (asked : Preedit → Prop) (writings : List GuestWriting)
    (app app' : KeyboardApp WindowComposer) : Prop :=
  ∃ events, app'.keys.sent = app.keys.sent ++ events ∧
    Passes writings (app.held id) (strokes id events) (app'.held id) ∧
    ∀ last, Shows asked (app.shown id) last →
      Shows asked (app'.shown id) (preeditSince id last events)

/-- And no window comes or goes. -/
structure Typed (id : UInt64) (asked : Preedit → Prop) (writings : List GuestWriting)
    (app app' : KeyboardApp WindowComposer) : Prop where
  opened : ∀ w, app'.windows.contains w = app.windows.contains w
  sends : Sends id asked writings app app'

/-- What is typed on another window is nothing to this one. -/
def own (id w : UInt64) (writings : List GuestWriting) : List GuestWriting := if w = id then writings else []

@[simp] theorem own_nil (id w : UInt64) : own id w [] = [] := ite_self []

theorem Sends.trans (h : Sends id asked writings app app')
    (h' : Sends id asked writings' app' app'') : Sends id asked (writings ++ writings') app app'' := by
  obtain ⟨events, hsent, hpasses, hshows⟩ := h
  obtain ⟨events', hsent', hpasses', hshows'⟩ := h'
  refine ⟨events ++ events', ?_, ?_, fun last hlast => ?_⟩
  · rw [hsent', hsent, List.append_assoc]
  · rw [strokes_append]
    exact hpasses.trans hpasses'
  · rw [preeditSince_append]
    exact hshows' _ (hshows last hlast)

/-- Events that do not write, while the composer stays as it is. -/
theorem Sends.silent {events : List InputEvent} (hheld : app'.held id = app.held id)
    (hshown : app'.shown id = app.shown id) (hsent : app'.keys.sent = app.keys.sent ++ events)
    (h : ∀ event ∈ events, Silent id event) : Sends id asked [] app app' := by
  refine ⟨events, hsent, ?_, fun last hlast => ?_⟩
  · rw [strokes_of_silent h, hheld]
    exact Passes.refl _
  · rw [preeditSince_of_silent last h, hshown]
    exact hlast

theorem Typed.trans (h : Typed id asked writings app app')
    (h' : Typed id asked writings' app' app'') : Typed id asked (writings ++ writings') app app'' :=
  ⟨fun w => (h'.opened w).trans (h.opened w), h.sends.trans h'.sends⟩

/-- Nothing is typed, and then something. -/
theorem Typed.after (h : Typed id asked [] app app') (h' : Typed id asked writings app' app'') :
    Typed id asked writings app app'' := h.trans h'

theorem Typed.silent {events : List InputEvent} (hwindows : app'.windows = app.windows)
    (hsent : app'.keys.sent = app.keys.sent ++ events) (h : ∀ event ∈ events, Silent id event) :
    Typed id asked [] app app' := by
  refine ⟨fun w => by rw [hwindows], .silent ?_ ?_ hsent h⟩
  · rw [held, held, hwindows]
  · rw [shown, shown, hwindows]

theorem Typed.refl (app : KeyboardApp WindowComposer) : Typed id asked [] app app :=
  .silent rfl (List.append_nil _).symm (List.forall_mem_nil _)

theorem typed_compose {view : KeyboardWindow WindowComposer}
    {op : WindowComposer → List ComposerAction × WindowComposer}
    (hview : app.windows.get? w = some view)
    (hcall : view.composer.Call writings (op view.composer)) :
    Typed id asked (own id w writings) app (app.compose w op) := by
  unfold compose
  rw [hview]
  simp only [sendComposerActions, foldl_sendInput]
  refine ⟨fun w' => ?_, _, rfl, ?_, fun last hlast => ?_⟩
  · by_cases h : w' = w
    · subst h
      simp [Table.contains_of_get? hview]
    · simp [h]
  · by_cases h : w = id
    · subst h
      simpa [strokes_actions, held, hview, own] using hcall.passes
    · simp only [strokes_actions, h, if_false, own, held, Table.get?_insert, Ne.symm h]
      exact Passes.refl _
  · by_cases h : w = id
    · subst h
      have hshown := shows_actions w hlast (op view.composer).1
      simpa [shown, hview, hcall.shown] using hshown
    · rw [preeditSince_actions_of_ne h]
      simpa [shown, Ne.symm h] using hlast

/-- A flush types nothing, and leaves nothing. -/
theorem typed_flush (id : UInt64) (asked : Preedit → Prop) (app : KeyboardApp WindowComposer)
    (w : UInt64) :
    Typed id asked [] app (app.flushComposer inputComposer w) ∧
      (app.flushComposer inputComposer w).held w = [] ∧
      (app.flushComposer inputComposer w).shown w = none := by
  cases hview : app.windows.get? w with
  | none =>
    have heq : app.flushComposer inputComposer w = app := by
      rw [flushComposer, compose, hview]
    rw [heq]
    exact ⟨.refl app, by simp [held, hview], by simp [shown, hview]⟩
  | some view =>
    obtain ⟨hcall, hheld, hshown⟩ := view.composer.flush_call
    have htyped : Typed id asked (own id w []) app (app.flushComposer inputComposer w) :=
      typed_compose hview hcall
    rw [own_nil] at htyped
    refine ⟨htyped, ?_, ?_⟩
    · simp [flushComposer, compose, hview, sendComposerActions, foldl_sendInput, held, hheld]
    · simp [flushComposer, compose, hview, sendComposerActions, foldl_sendInput, shown, hshown]

/-! ### Past a composer that holds nothing -/

theorem typed_key {keycode : UInt32} (hheld : app.held w = []) (hkey : keycode ∉ guestModifierKeycodes)
    (hwindows : app'.windows = app.windows)
    (hsent : app'.keys.sent = app.keys.sent ++ [.key w keycode .pressed]) :
    Typed id asked (own id w [.key keycode]) app app' := by
  by_cases h : w = id
  · subst h
    refine ⟨fun w => by rw [hwindows], _, hsent, ?_, fun last hlast => ?_⟩
    · have hheld' : app'.held w = [] := by rw [held, hwindows, ← held, hheld]
      simpa [hheld, hheld', own, strokes, strokesOf, hkey] using Passes.key keycode
    · rw [shown, hwindows]
      exact hlast
  · rw [own, if_neg h]
    refine .silent hwindows hsent fun event hevent => ?_
    obtain rfl := List.mem_singleton.mp hevent
    exact ⟨if_neg fun hkey => h hkey.1, rfl⟩

theorem typed_text (hheld : app.held w = []) (text : String) :
    Typed id asked (own id w [textWriting text]) app (app.sendInput (.text w text)) := by
  by_cases h : w = id
  · subst h
    refine ⟨fun _ => rfl, [.text w text], rfl, ?_, fun last hlast => hlast⟩
    have hheld' : (app.sendInput (.text w text)).held w = [] := hheld
    have htext : normalise text.toList ++ [] = [] ++ normalise text.toList := List.append_nil _
    simpa [hheld, hheld', own, strokes, strokesOf, textWriting] using Passes.text htext
  · rw [own, if_neg h]
    refine .silent rfl rfl fun event hevent => ?_
    obtain rfl := List.mem_singleton.mp hevent
    exact ⟨if_neg h, rfl⟩

/-- A preedit comes from the input method only while the composer shows none. -/
theorem typed_preedit {preedit : Preedit} (hshown : app.shown w = none)
    (hasked : w = id → preedit = .hidden ∨ asked preedit) :
    Typed id asked [] app (app.sendInput (.preedit w preedit.1 preedit.2.1 preedit.2.2)) := by
  by_cases h : w = id
  · subst h
    refine ⟨fun _ => rfl, _, rfl, Passes.refl _, fun last hlast => ?_⟩
    have hshown' : (app.sendInput (.preedit w preedit.1 preedit.2.1 preedit.2.2)).shown w = none :=
      hshown
    rw [hshown']
    intro preedit' hpreedit'
    obtain rfl : preedit = preedit' := by
      simpa [preeditSince, preeditOf] using hpreedit'
    exact hasked rfl
  · refine .silent rfl rfl fun event hevent => ?_
    obtain rfl := List.mem_singleton.mp hevent
    exact ⟨rfl, if_neg h⟩

/-! ### Keys that do not write -/

theorem typed_modifiers (app : KeyboardApp WindowComposer) (modifiers : ModifiersState) :
    Typed id asked [] app { app with modifiers } := .silent rfl (List.append_nil _).symm (List.forall_mem_nil _)

theorem typed_released (app : KeyboardApp WindowComposer) (w : UInt64) (keycode : UInt32) :
    Typed id asked [] app (app.sendTrackedGuestKey w keycode .released) := by
  unfold sendTrackedGuestKey KeyLedger.sendTrackedGuestKey
  cases hheld : app.keys.pressedGuestKeys.get? keycode with
  | none => exact .refl app
  | some pressedId =>
    refine .silent rfl rfl fun event hevent => ?_
    obtain rfl := List.mem_singleton.mp hevent
    exact silent_released id pressedId keycode

theorem typed_modifierKey (app : KeyboardApp WindowComposer) (w : UInt64) {keycode : UInt32}
    (hkey : keycode ∈ guestModifierKeycodes) (state : ElementState) :
    Typed id asked [] app
      { app with keys := app.keys.sendTrackedGuestModifierKey w keycode state } := by
  simp only [KeyLedger.sendTrackedGuestModifierKey]
  split
  · cases state with
    | pressed =>
      refine .silent rfl rfl fun event hevent => ?_
      obtain rfl := List.mem_singleton.mp hevent
      exact silent_modifier id w .pressed hkey
    | released =>
      have hcounts : Typed id asked [] app
          { app with keys := { app.keys with pressedGuestModifierCounts :=
            (guestModifierRefcountShouldForward app.keys.pressedGuestModifierCounts keycode
              .released).2 } } := .silent rfl (List.append_nil _).symm (List.forall_mem_nil _)
      exact hcounts.after (typed_released _ w keycode)
  · exact .silent rfl (List.append_nil _).symm (List.forall_mem_nil _)

theorem typed_releaseWindow (app : KeyboardApp WindowComposer) (w : UInt64) (iter : List UInt32) :
    Typed id asked [] app { app with keys := app.keys.releaseWindowGuestKeys w iter } := by
  rw [KeyLedger.releaseWindowGuestKeys_eq]
  generalize iter.filter _ = keycodes
  induction keycodes generalizing app with
  | nil => exact .refl app
  | cons keycode keycodes ih =>
    have hrelease : Typed id asked [] app
        { app with keys := app.keys.releaseWindowGuestKey w keycode } := by
      refine .silent rfl rfl fun event hevent => ?_
      obtain rfl := List.mem_singleton.mp hevent
      exact silent_released id w keycode
    exact hrelease.after (ih _)

/-! ### Texts -/

theorem typed_clearStale (app : KeyboardApp WindowComposer) (w : UInt64) :
    Typed id asked [] app (app.clearStaleShortcutModifiersForText inputComposer w) := by
  unfold clearStaleShortcutModifiersForText
  split
  · exact .refl app
  · exact (typed_modifiers app .empty).after (typed_flush _ _ _ w).1

theorem typed_withTextModifiers (app : KeyboardApp WindowComposer) (w : UInt64) (event : KeyEvent) :
    Typed id asked [] app (app.withTextModifiers inputComposer w event) := by
  unfold withTextModifiers
  split
  · exact typed_clearStale app w
  · exact .refl app

theorem typed_hostText (hopen : app.windows.contains w = true) (text : String) :
    Typed id asked (own id w [textWriting text]) app (app.sendHostText inputComposer w text) := by
  unfold sendHostText
  split
  · obtain ⟨view, hview⟩ := (Table.contains_iff _ w).mp hopen
    exact typed_compose hview (view.composer.pushText_call text)
  · obtain ⟨hflush, hheld, -⟩ := typed_flush id asked app w
    exact hflush.after (typed_text hheld text)

/-! ### Keys -/

/-- Whatever was held is sent before the key. -/
theorem typed_trackedKey (app : KeyboardApp WindowComposer) (w : UInt64) {keycode : UInt32}
    (hkey : keycode ∉ guestModifierKeycodes) :
    Typed id asked (own id w [.key keycode]) app
      ((app.flushComposer inputComposer w).sendTrackedGuestKey w keycode .pressed) := by
  obtain ⟨hflush, hheld, -⟩ := typed_flush id asked app w
  exact hflush.after (typed_key hheld hkey rfl rfl)

/-- A key that is sent as it is, and is no press of more than a modifier. -/
theorem typed_guestKey (id : UInt64) (asked : Preedit → Prop) (app : KeyboardApp WindowComposer)
    (w : UInt64) {k : UInt32} (state : InputKeyState)
    (h : k ∈ guestModifierKeycodes ∨ state = .released) :
    Typed id asked [] app { app with keys := app.keys.sendGuestKey w k state } := by
  refine .silent rfl rfl fun event hevent => ?_
  obtain rfl := List.mem_singleton.mp hevent
  obtain hkey | rfl := h
  · exact silent_modifier id w state hkey
  · exact silent_released id w k

/-- The modifiers around the shortcut's key do not write. -/
theorem typed_newTab (app : KeyboardApp WindowComposer) (w : UInt64) :
    Typed id asked (own id w [.key 20]) app (app.sendTerminalNewTab inputComposer w) := by
  have hctrl : keyLeftctrl ∈ guestModifierKeycodes := by decide
  have hshift : keyLeftshift ∈ guestModifierKeycodes := by decide
  obtain ⟨hflush, hheld, -⟩ := typed_flush id asked app w
  have htail : ∀ app : KeyboardApp WindowComposer, Typed id asked [] app
      { app with keys :=
        (app.keys.sendGuestKey w 20 .released).sendGuestKey w keyLeftshift .released } := fun app =>
    (typed_guestKey id asked app w .released (.inr rfl)).after
      (typed_guestKey id asked _ w .released (.inr rfl))
  have hmiddle : ∀ app : KeyboardApp WindowComposer, app.held w = [] →
      Typed id asked (own id w [.key 20]) app
        { app with keys := (app.keys.sendGuestKey w keyLeftshift .pressed).sendGuestKey w 20 .pressed } :=
    fun app hheld => (typed_guestKey id asked app w .pressed (.inl hshift)).after
      (typed_key (by exact hheld) (by decide) rfl rfl)
  have hchord : ∀ app : KeyboardApp WindowComposer, app.held w = [] →
      Typed id asked (own id w [.key 20]) app
        { app with keys :=
          (((app.keys.sendGuestKey w keyLeftshift .pressed).sendGuestKey w 20 .pressed).sendGuestKey w
            20 .released).sendGuestKey w keyLeftshift .released } := by
    intro app hheld
    simpa using (hmiddle app hheld).trans (htail _)
  refine hflush.after ?_
  simp only [sendTerminalNewTab]
  cases (app.flushComposer inputComposer w).keys.pressedGuestKeys.contains keyLeftctrl with
  | true => exact hchord _ hheld
  | false =>
    have hpress := typed_guestKey id asked (app.flushComposer inputComposer w) w .pressed (.inl hctrl)
    have hrest := (hpress.after (hchord _ (by exact hheld))).trans
      (typed_guestKey id asked _ w (k := keyLeftctrl) .released (.inr rfl))
    rw [List.append_nil] at hrest
    exact hrest

theorem typed_textKey (hopen : app.windows.contains w = true) {event : KeyEvent}
    (hstate : event.state = .pressed) (command : Bool) :
    Typed id asked
      (own id w (if command then []
        else ((printableKeyboardText event.text).filter fun text => !canCompose text).toList.map
          textWriting))
      app (app.handleTextKey inputComposer w event command) := by
  unfold handleTextKey
  rw [if_neg (not_not.mpr hstate)]
  cases command with
  | true => simpa using Typed.refl app
  | false =>
    simp only [Bool.false_eq_true, if_false]
    cases htext : printableKeyboardText event.text with
    | none => simpa using Typed.refl app
    | some text =>
      by_cases hcompose : canCompose text = true
      · have hime : inputComposer.canCompose text = true := hcompose
        simpa [Option.filter, hcompose, hime] using Typed.refl app
      · have hime : inputComposer.canCompose text = false := Bool.eq_false_of_not_eq_true hcompose
        simpa [Option.filter, hcompose, hime] using typed_hostText hopen text

theorem typed_namedKey (hopen : app.windows.contains w = true) {event : KeyEvent}
    (hstate : event.state = .pressed) (hcommand : keyboardCommandModifiersActive app.modifiers = false) :
    Typed id asked (own id w (app.plainWriting w event)) app
      (app.handleNamedKey inputComposer w event false) := by
  unfold handleNamedKey plainWriting
  rw [if_neg (by rw [hcommand]; decide)]
  cases hkeycode : namedKeycode event.logicalKey with
  | none => simpa using typed_textKey hopen hstate false
  | some keycode =>
    dsimp only
    rw [if_pos hstate]
    split
    · rename_i hback
      obtain ⟨view, hview⟩ := (Table.contains_iff _ w).mp hopen
      have hempty : view.composer.val.isEmpty = false := by
        have hsome := hback.2
        simp only [composerIsEmpty, hview, Option.all_some, Bool.not_eq_true'] at hsome
        exact hsome
      exact typed_compose hview (WindowComposer.backspace_call hempty)
    · exact typed_trackedKey app w (namedKeycode_ne_modifier hkeycode)

theorem typed_commandKey {event : KeyEvent} (hstate : event.state = .pressed)
    (hcommand : keyboardCommandModifiersActive app.modifiers = true) :
    Typed id asked (own id w (app.plainWriting w event)) app
      (app.handleCommandKey inputComposer w event) := by
  unfold handleCommandKey plainWriting
  rw [if_pos hcommand]
  by_cases hview : shortcutModifiersActive app.modifiers = true ∧
      app.handleViewShortcut w event.logicalKey = true
  · rw [if_pos hview, if_pos ⟨hstate, hview⟩, own_nil]
    exact .refl app
  · rw [if_neg hview, if_neg fun h => hview h.2]
    cases hkeycode : (shortcutKeycode event.physicalKey).or (namedKeycode event.logicalKey) with
    | none =>
      have hnamed : namedKeycode event.logicalKey = none := (Option.or_eq_none_iff.mp hkeycode).2
      have htext : app.handleNamedKey inputComposer w event true = app := by
        simp only [handleNamedKey, hnamed, handleTextKey, hstate, ne_eq, not_true_eq_false, if_false,
          if_true]
      rw [htext]
      simpa using Typed.refl app
    | some keycode =>
      dsimp only
      rw [if_pos hstate]
      refine typed_trackedKey app w ?_
      obtain hshortcut | ⟨-, hnamed⟩ := Option.or_eq_some_iff.mp hkeycode
      · exact shortcutKeycode_ne_modifier hshortcut
      · exact namedKeycode_ne_modifier hnamed

theorem typed_plain (hopen : app.windows.contains w = true) {event : KeyEvent}
    (hstate : event.state = .pressed) :
    Typed id asked (own id w (app.plainWriting w event)) app
      (if keyboardCommandModifiersActive app.modifiers then app.handleCommandKey inputComposer w event
        else app.handleNamedKey inputComposer w event false) := by
  split
  · exact typed_commandKey hstate ‹_›
  · exact typed_namedKey hopen hstate (Bool.eq_false_of_not_eq_true ‹_›)

/-! ### Releases -/

section Released

variable {event : KeyEvent} (hstate : event.state = .released)

include hstate

theorem typed_textKey_released (app : KeyboardApp WindowComposer) (w : UInt64) (command : Bool) :
    Typed id asked [] app (app.handleTextKey inputComposer w event command) := by
  unfold handleTextKey
  rw [if_pos (by rw [hstate]; decide)]
  split
  · exact typed_released app w _
  · exact .refl app

theorem typed_namedKey_released (app : KeyboardApp WindowComposer) (w : UInt64) (command : Bool) :
    Typed id asked [] app (app.handleNamedKey inputComposer w event command) := by
  unfold handleNamedKey
  split
  · exact typed_textKey_released hstate app w command
  · rw [if_neg (by rw [hstate]; decide)]
    exact typed_released app w _

theorem typed_commandKey_released (app : KeyboardApp WindowComposer) (w : UInt64) :
    Typed id asked [] app (app.handleCommandKey inputComposer w event) := by
  have hnot : ¬ event.state = .pressed := by
    rw [hstate]
    decide
  unfold handleCommandKey
  rw [if_neg fun h => hnot h.1]
  split
  · exact typed_namedKey_released hstate app w true
  · rw [if_neg hnot]
    split
    · exact .refl app
    · exact typed_released app w _

/-- A release writes nothing, whatever it releases. -/
theorem typed_keyboard_released (app : KeyboardApp WindowComposer) (w : UInt64)
    (hmodifier : guestModifierKeycode event.physicalKey event.logicalKey = none) :
    Typed id asked [] app (app.handleKeyboard inputComposer w event) := by
  have hterminal : isTerminalNewTabShortcut event app.modifiers (app.targetIsTerminal w) = false := by
    simp [isTerminalNewTabShortcut, hstate]
  simp only [handleKeyboard, hmodifier, hstate, reduceCtorEq, false_and, if_false, hterminal,
    Bool.false_eq_true]
  split
  · exact .refl app
  split
  · exact typed_commandKey_released hstate app w
  · exact typed_namedKey_released hstate app w false

end Released

/-- A key event types what it is taken for. -/
theorem typed_keyboard (hopen : app.windows.contains w = true) (event : KeyEvent) :
    Typed id asked (own id w (app.keyWriting w event)) app
      (app.handleKeyboard inputComposer w event) := by
  cases hmodifier : guestModifierKeycode event.physicalKey event.logicalKey with
  | some keycode =>
    simp only [keyWriting, handleKeyboard, hmodifier, Option.isSome_some, or_true, if_true, own_nil]
    exact typed_modifierKey app w (guestModifierKeycode_mem hmodifier) event.state
  | none =>
    cases hstate : event.state with
    | released =>
      simp only [keyWriting, hstate, true_or, if_true, own_nil]
      exact typed_keyboard_released hstate app w hmodifier
    | pressed =>
      have hswallow : isEmojiPickerReleaseToSwallow .pressed event.physicalKey app.modifiers = false := by
        simp [isEmojiPickerReleaseToSwallow]
      simp only [keyWriting, handleKeyboard, hmodifier, hstate, reduceCtorEq, false_or,
        Option.isSome_none, Bool.false_eq_true, if_false, true_and, hswallow]
      by_cases hdump : (!event.isRepeat) = true ∧
          isWindowDumpShortcut app.modifiers event.logicalKey = true
      · rw [if_pos hdump, if_pos (by simp [hdump.1, hdump.2]), own_nil]
        exact .refl app
      rw [if_neg hdump]
      by_cases hfull : (!event.isRepeat) = true ∧
          isFullscreenShortcut app.modifiers event.logicalKey = true
      · rw [if_pos hfull, if_pos (by simp [hfull.1, hfull.2]), own_nil]
        refine .silent rfl rfl fun e he => ?_
        obtain rfl := List.mem_singleton.mp he
        exact ⟨rfl, rfl⟩
      have hshortcut : ¬ (!event.isRepeat && (isWindowDumpShortcut app.modifiers event.logicalKey ||
          isFullscreenShortcut app.modifiers event.logicalKey)) = true := by
        simp only [Bool.and_eq_true, Bool.or_eq_true]
        rintro ⟨hrepeat, h | h⟩
        · exact hdump ⟨hrepeat, h⟩
        · exact hfull ⟨hrepeat, h⟩
      rw [if_neg hfull, if_neg hshortcut]
      by_cases hemoji : isMacosEmojiPickerShortcut event.physicalKey app.modifiers = true
      · rw [if_pos hemoji, if_pos hemoji, own_nil]
        exact (typed_flush _ _ app w).1
      rw [if_neg hemoji, if_neg hemoji]
      by_cases htab : isTerminalNewTabShortcut event app.modifiers (app.targetIsTerminal w) = true
      · rw [if_pos htab, if_pos htab]
        exact typed_newTab app w
      rw [if_neg htab, if_neg htab]
      have htext : Typed id asked [] app (app.withTextModifiers inputComposer w event) :=
        typed_withTextModifiers app w event
      have hopen' : (app.withTextModifiers inputComposer w event).windows.contains w = true :=
        (htext.opened w).trans hopen
      exact htext.after (typed_plain hopen' hstate)

/-! ### The input method -/

theorem modifiers_clearStale (app : KeyboardApp WindowComposer) (w : UInt64) :
    shortcutModifiersActive (app.clearStaleShortcutModifiersForText inputComposer w).modifiers =
      (shortcutModifiersActive app.modifiers && app.keys.pressedGuestKeys.contains keyLeftctrl) := by
  unfold clearStaleShortcutModifiersForText
  cases hactive : shortcutModifiersActive app.modifiers with
  | false => simpa using hactive
  | true =>
    cases hctrl : app.keys.pressedGuestKeys.contains keyLeftctrl with
    | true => simpa using hactive
    | false =>
      have hmodifiers := (compose_keys { app with modifiers := .empty } w inputComposer.flush).2
      simp only [Bool.not_true, Bool.or_false, Bool.false_eq_true, if_false, Bool.and_false,
        clearShortcutModifierCache, flushComposer, hmodifiers]
      rfl

theorem typed_clearCacheAndCtrl (app : KeyboardApp WindowComposer) (w : UInt64) :
    Typed id asked [] app (app.clearShortcutModifierCacheAndCtrl inputComposer w) := by
  have hrelease : Typed id asked [] app
      { app with
        modifiers := .empty
        keys := (app.keys.releaseGuestKeyIfPressed keyLeftctrl).2 } := by
    simp only [KeyLedger.releaseGuestKeyIfPressed]
    split
    · exact .silent rfl (List.append_nil _).symm (List.forall_mem_nil _)
    · rename_i pressedId hpressed
      refine .silent rfl rfl fun event hevent => ?_
      obtain rfl := List.mem_singleton.mp hevent
      exact silent_released id pressedId keyLeftctrl
  exact hrelease.after (typed_flush _ _ _ w).1

/-- A flush, and then a preedit that is not the composer's. -/
theorem typed_hostPreedit (app : KeyboardApp WindowComposer) (w : UInt64) (preedit : Preedit)
    (hasked : w = id → preedit = .hidden ∨ asked preedit) :
    Typed id asked [] app
      ((app.flushComposer inputComposer w).sendInput
        (.preedit w preedit.1 preedit.2.1 preedit.2.2)) := by
  obtain ⟨hflush, -, hshown⟩ := typed_flush id asked app w
  exact hflush.after (typed_preedit hshown hasked)

theorem handleIme_text (id : UInt64) (asked : Preedit → Prop) (app : KeyboardApp WindowComposer)
    (w : UInt64) {event : Ime}
    (htext : event.isText = true) :
    ∃ cleared : KeyboardApp WindowComposer, Typed id asked [] app cleared ∧
      app.handleIme inputComposer w event =
        if shortcutModifiersActive app.modifiers ∧ app.keys.pressedGuestKeys.contains keyLeftctrl then
          cleared
        else cleared.receiveIme inputComposer w event := by
  cases hactive : shortcutModifiersActive app.modifiers with
  | false => exact ⟨app, .refl app, by simp [handleIme, hactive]⟩
  | true =>
    have hcleared := modifiers_clearStale app w
    rw [hactive, Bool.true_and] at hcleared
    refine ⟨app.clearStaleShortcutModifiersForText inputComposer w, typed_clearStale app w, ?_⟩
    simp only [handleIme, hactive, htext, and_self, if_true, hcleared, and_true, true_and]

theorem typed_receiveIme (hopen : app.windows.contains w = true) (event : Ime)
    (hasked : w = id → ∀ text cursor, event = .preedit text cursor →
      asked (text, imeCursorRange cursor)) :
    Typed id asked (own id w (receivedWriting event)) app
      (app.receiveIme inputComposer w event) := by
  cases event with
  | enabled =>
    simp only [receiveIme, receivedWriting, own_nil]
    split
    · exact (typed_clearCacheAndCtrl app w).after (typed_flush _ _ _ w).1
    · exact (typed_flush _ _ app w).1
  | disabled =>
    simp only [receiveIme, receivedWriting, own_nil]
    exact typed_hostPreedit app w .hidden fun _ => .inl rfl
  | preedit text cursor =>
    simp only [receiveIme, receivedWriting, own_nil]
    split
    · exact .refl app
    · exact typed_hostPreedit app w (text, imeCursorRange cursor) fun h =>
        .inr (hasked h text cursor rfl)
  | commit text =>
    simp only [receiveIme, receivedWriting]
    split
    · rw [own_nil]
      exact .refl app
    · exact typed_hostText hopen text

/-- An event of the input method types what it is taken for. -/
theorem typed_ime (hopen : app.windows.contains w = true) (event : Ime)
    (hasked : w = id → ∀ text cursor, event = .preedit text cursor →
      asked (text, imeCursorRange cursor)) :
    Typed id asked (own id w (app.imeWriting event)) app (app.handleIme inputComposer w event) := by
  cases htext : event.isText with
  | false =>
    have hime : app.handleIme inputComposer w event = app.receiveIme inputComposer w event := by
      simp [handleIme, htext]
    rw [hime, imeWriting, if_neg (by simp [htext])]
    exact typed_receiveIme hopen event hasked
  | true =>
    obtain ⟨cleared, hcleared, hime⟩ := handleIme_text id asked app w htext
    rw [hime, imeWriting]
    simp only [htext, true_and]
    split
    · rw [own_nil]
      exact hcleared
    · exact hcleared.after (typed_receiveIme ((hcleared.opened w).trans hopen) event hasked)

end KeyboardApp

end VBox
