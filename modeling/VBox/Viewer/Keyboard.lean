import VBox.Viewer.Windows

/-!
# Viewer.Keyboard

From the host's keyboard to the keys of the guest (`handle_keyboard` in
`crates/client/src/viewer/app.rs`, and `input.rs`).

A press and the release that follows are translated each on its own, by the modifiers and the
logical key of that moment. The composer of the input method is a parameter, given by what
`handle_keyboard` uses of it.

* `handleKeyboard_pressed`, `handleKeyboard_released`: what a key event does to the ledger of keys.
-/

namespace VBox

/-! ## Keys of the host -/

/-- The keys of a keyboard by their place, as far as the viewer tells them apart. -/
inductive KeyCode where
  | digit0 | digit1 | digit2 | digit3 | digit4 | digit5 | digit6 | digit7 | digit8 | digit9
  | minus | equal | tab | bracketLeft | bracketRight | enter | numpadEnter | semicolon | quote
  | backquote | backslash | intlBackslash | intlYen | comma | period | numpadDecimal | slash
  | numpadDivide | space | backspace | escape | arrowLeft | arrowRight | arrowUp | arrowDown
  | delete | home | «end»
  | keyA | keyB | keyC | keyD | keyE | keyF | keyG | keyH | keyI | keyJ | keyK | keyL | keyM
  | keyN | keyO | keyP | keyQ | keyR | keyS | keyT | keyU | keyV | keyW | keyX | keyY | keyZ
  | controlLeft | controlRight | shiftLeft | shiftRight | altLeft | altRight | superLeft | superRight
  | other (n : Nat)
  deriving DecidableEq

inductive PhysicalKey where
  | code (code : KeyCode)
  | unidentified (n : Nat)
  deriving DecidableEq

inductive NamedKey where
  | enter | tab | backspace | escape | arrowLeft | arrowRight | arrowUp | arrowDown | delete | home
  | «end» | control | shift | alt | super | f11
  | other (n : Nat)
  deriving DecidableEq

/-- What a key means under the modifiers and the layout of the moment. -/
inductive Key where
  | named (key : NamedKey)
  | character (text : String)
  | unidentified (n : Nat)
  | dead (char : Option Char)
  deriving DecidableEq

structure KeyEvent where
  physicalKey : PhysicalKey
  logicalKey : Key
  text : Option String
  state : ElementState
  isRepeat : Bool

structure ModifiersState where
  shiftKey : Bool
  controlKey : Bool
  altKey : Bool
  superKey : Bool
  deriving DecidableEq

def ModifiersState.empty : ModifiersState :=
  { shiftKey := false, controlKey := false, altKey := false, superKey := false }

/-! ## Keycodes of the guest -/

def keyBackspace : UInt32 := 14

/-- Command is what a user of a Mac means by the guest's Control. -/
def guestModifierKeycode (physical : PhysicalKey) (logical : Key) : Option UInt32 :=
  match physical with
  | .code .controlLeft => some keyLeftctrl
  | .code .controlRight => some keyRightctrl
  | .code .shiftLeft => some keyLeftshift
  | .code .shiftRight => some keyRightshift
  | .code .altLeft => some keyLeftalt
  | .code .altRight => some keyRightalt
  | .code .superLeft => some keyLeftctrl
  | .code .superRight => some keyLeftctrl
  | _ =>
    match logical with
    | .named .control => some keyLeftctrl
    | .named .shift => some keyLeftshift
    | .named .alt => some keyLeftalt
    | .named .super => some keyLeftctrl
    | _ => none

def shortcutKeycode : PhysicalKey → Option UInt32
  | .unidentified _ => none
  | .code code =>
    match code with
    | .digit1 => some 2
    | .digit2 => some 3
    | .digit3 => some 4
    | .digit4 => some 5
    | .digit5 => some 6
    | .digit6 => some 7
    | .digit7 => some 8
    | .digit8 => some 9
    | .digit9 => some 10
    | .digit0 => some 11
    | .minus => some 12
    | .equal => some 13
    | .tab => some 15
    | .keyQ => some 16
    | .keyW => some 17
    | .keyE => some 18
    | .keyR => some 19
    | .keyT => some 20
    | .keyY => some 21
    | .keyU => some 22
    | .keyI => some 23
    | .keyO => some 24
    | .keyP => some 25
    | .bracketLeft => some 26
    | .bracketRight => some 27
    | .enter | .numpadEnter => some 28
    | .keyA => some 30
    | .keyS => some 31
    | .keyD => some 32
    | .keyF => some 33
    | .keyG => some 34
    | .keyH => some 35
    | .keyJ => some 36
    | .keyK => some 37
    | .keyL => some 38
    | .semicolon => some 39
    | .quote => some 40
    | .backquote => some 41
    | .backslash | .intlBackslash | .intlYen => some 43
    | .keyZ => some 44
    | .keyX => some 45
    | .keyC => some 46
    | .keyV => some 47
    | .keyB => some 48
    | .keyN => some 49
    | .keyM => some 50
    | .comma => some 51
    | .period | .numpadDecimal => some 52
    | .slash | .numpadDivide => some 53
    | .space => some 57
    | .backspace => some keyBackspace
    | .escape => some 1
    | .arrowLeft => some 105
    | .arrowRight => some 106
    | .arrowUp => some 103
    | .arrowDown => some 108
    | .delete => some 111
    | .home => some 102
    | .end => some 107
    | _ => none

def namedKeycode : Key → Option UInt32
  | .named .enter => some 28
  | .named .tab => some 15
  | .named .backspace => some keyBackspace
  | .named .escape => some 1
  | .named .arrowLeft => some 105
  | .named .arrowRight => some 106
  | .named .arrowUp => some 103
  | .named .arrowDown => some 108
  | .named .delete => some 111
  | .named .home => some 102
  | .named .end => some 107
  | _ => none

/-! ## Shortcuts -/

/-- `char::is_control` -/
def isControl (c : Char) : Bool := c.val < 0x20 || (0x7f ≤ c.val && c.val ≤ 0x9f)

def printableKeyboardText (text : Option String) : Option String :=
  text.filter fun text => !(text.isEmpty || text.toList.any isControl)

def shortcutModifiersActive (modifiers : ModifiersState) : Bool :=
  modifiers.controlKey || modifiers.superKey

def keyboardCommandModifiersActive (modifiers : ModifiersState) : Bool :=
  shortcutModifiersActive modifiers || modifiers.altKey

def isMacosEmojiPickerShortcut (physical : PhysicalKey) (modifiers : ModifiersState) : Bool :=
  physical = .code .space && modifiers.superKey && modifiers.controlKey && !modifiers.altKey &&
    !modifiers.shiftKey

def isEmojiPickerReleaseToSwallow (state : ElementState) (physical : PhysicalKey)
    (modifiers : ModifiersState) : Bool :=
  state = .released && physical = .code .space && modifiers.superKey && modifiers.controlKey

/-- `str::eq_ignore_ascii_case`, of a key's text. -/
def isCharacter (logical : Key) (text : String) : Bool :=
  match logical with
  | .character s => toAsciiLowercase s = toAsciiLowercase text
  | _ => false

def isWindowDumpShortcut (modifiers : ModifiersState) (logical : Key) : Bool :=
  modifiers.superKey && modifiers.altKey && !modifiers.controlKey && !modifiers.shiftKey &&
    isCharacter logical "w"

def isFullscreenShortcut (modifiers : ModifiersState) (logical : Key) : Bool :=
  if logical = .named .f11 && !modifiers.controlKey && !modifiers.superKey && !modifiers.altKey then
    true
  else
    modifiers.superKey && modifiers.shiftKey && !modifiers.controlKey && !modifiers.altKey &&
      isCharacter logical "f"

def isTerminalNewTabShortcut (event : KeyEvent) (modifiers : ModifiersState)
    (targetIsTerminal : Bool) : Bool :=
  event.state = .pressed && !event.isRepeat && modifiers.superKey && !modifiers.controlKey &&
    !modifiers.altKey && !modifiers.shiftKey && event.physicalKey = .code .keyT && targetIsTerminal

def isTerminalWindowTitle (title : String) : Bool :=
  let lower := toAsciiLowercase title
  strContains lower "terminal".toList || strContains lower "ptyxis".toList ||
    strContains title.toList "터미널".toList || strContains title.toList "@".toList

/-- The texts for which `next_view_scale` has a scale. -/
def viewShortcutTexts : List String := ["+", "=", "-", "_", "0"]

/-! ## The composer -/

inductive ComposerAction where
  | commit (text : String)
  | preedit (text : Option String)

/-- What the viewer uses of `InputComposer` and its module. -/
structure Composer (κ : Type) where
  isEmpty : κ → Bool
  backspace : κ → List ComposerAction × κ
  pushText : κ → String → List ComposerAction × κ
  flush : κ → List ComposerAction × κ
  canCompose : String → Bool

/-- A byte length as a cursor. -/
def usizeToI32 (n : Nat) : Int32 := Int32.ofNat (min n (2 ^ 31 - 1))

def ComposerAction.input (id : UInt64) : ComposerAction → Option InputEvent
  | .commit text => if text.isEmpty then none else some (.text id text)
  | .preedit (some text) =>
    let cursor := usizeToI32 text.utf8ByteSize
    some (.preedit id text cursor cursor)
  | .preedit none => some (.preedit id "" (-1) (-1))

/-! ## The app -/

/-- What `handle_keyboard` knows about a window. `fullscreen` is what the host says of it. -/
structure KeyboardWindow (κ : Type) where
  title : String
  fullscreen : Bool
  composer : κ

structure KeyboardApp (κ : Type) where
  keys : KeyLedger
  modifiers : ModifiersState
  windows : Table UInt64 (KeyboardWindow κ)

namespace KeyboardApp

variable {κ : Type} (ime : Composer κ)

def sendInput (app : KeyboardApp κ) (event : InputEvent) : KeyboardApp κ :=
  { app with keys := app.keys.sendInput event }

def sendComposerActions (app : KeyboardApp κ) (id : UInt64) (actions : List ComposerAction) :
    KeyboardApp κ :=
  (actions.filterMap (ComposerAction.input id)).foldl sendInput app

/-- One of the composer's operations, on the composer of a window. -/
def compose (app : KeyboardApp κ) (id : UInt64) (op : κ → List ComposerAction × κ) : KeyboardApp κ :=
  match app.windows.get? id with
  | none => app
  | some view =>
    let (actions, composer) := op view.composer
    { app with windows := app.windows.insert id { view with composer } }.sendComposerActions id actions

def flushComposer (app : KeyboardApp κ) (id : UInt64) : KeyboardApp κ := app.compose id ime.flush

def composerIsEmpty (app : KeyboardApp κ) (id : UInt64) : Bool :=
  (app.windows.get? id).all fun view => ime.isEmpty view.composer

def sendHostText (app : KeyboardApp κ) (id : UInt64) (text : String) : KeyboardApp κ :=
  if ime.canCompose text then app.compose id fun composer => ime.pushText composer text
  else (app.flushComposer ime id).sendInput (.text id text)

def sendTrackedGuestKey (app : KeyboardApp κ) (id : UInt64) (keycode : UInt32)
    (state : ElementState) : KeyboardApp κ :=
  { app with keys := app.keys.sendTrackedGuestKey id keycode state }

/-- Without `release_guest_ctrl`, which this caller does not ask for. -/
def clearShortcutModifierCache (app : KeyboardApp κ) (id : UInt64) : KeyboardApp κ :=
  { app with modifiers := .empty }.flushComposer ime id

def clearStaleShortcutModifiersForText (app : KeyboardApp κ) (id : UInt64) : KeyboardApp κ :=
  if !shortcutModifiersActive app.modifiers || app.keys.pressedGuestKeys.contains keyLeftctrl then app
  else app.clearShortcutModifierCache ime id

/-- Whether the shortcut is for the view. Its scale is not of interest here. -/
def handleViewShortcut (app : KeyboardApp κ) (id : UInt64) (logical : Key) : Bool :=
  match logical with
  | .character text => app.windows.contains id && viewShortcutTexts.contains text
  | _ => false

def targetIsTerminal (app : KeyboardApp κ) (id : UInt64) : Bool :=
  (app.windows.get? id).any fun view => isTerminalWindowTitle view.title

/-- Cmd+T in a terminal: the guest gets Ctrl+Shift+T, pressed and released at once. -/
def sendTerminalNewTab (app : KeyboardApp κ) (id : UInt64) : KeyboardApp κ :=
  let app := app.flushComposer ime id
  let injectedCtrl := !app.keys.pressedGuestKeys.contains keyLeftctrl
  let keys := app.keys
  let keys := if injectedCtrl then keys.sendGuestKey id keyLeftctrl .pressed else keys
  let keys := keys.sendGuestKey id keyLeftshift .pressed
  let keys := keys.sendGuestKey id 20 .pressed
  let keys := keys.sendGuestKey id 20 .released
  let keys := keys.sendGuestKey id keyLeftshift .released
  let keys := if injectedCtrl then keys.sendGuestKey id keyLeftctrl .released else keys
  { app with keys }

/-- The end of `handle_keyboard`, for a key without a keycode of its own. -/
def handleTextKey (app : KeyboardApp κ) (id : UInt64) (event : KeyEvent)
    (keyboardCommandModifiers : Bool) : KeyboardApp κ :=
  if event.state ≠ .pressed then
    match (shortcutKeycode event.physicalKey).filter app.keys.pressedGuestKeys.contains with
    | some keycode => app.sendTrackedGuestKey id keycode .released
    | none => app
  else if keyboardCommandModifiers then app
  else
    match printableKeyboardText event.text with
    | none => app
    | some text => if ime.canCompose text then app else app.sendHostText ime id text

def handleNamedKey (app : KeyboardApp κ) (id : UInt64) (event : KeyEvent)
    (keyboardCommandModifiers : Bool) : KeyboardApp κ :=
  match namedKeycode event.logicalKey with
  | none => app.handleTextKey ime id event keyboardCommandModifiers
  | some keycode =>
    if event.state = .pressed then
      if keycode = keyBackspace ∧ !app.composerIsEmpty ime id then app.compose id ime.backspace
      else (app.flushComposer ime id).sendTrackedGuestKey id keycode .pressed
    else app.sendTrackedGuestKey id keycode .released

def handleCommandKey (app : KeyboardApp κ) (id : UInt64) (event : KeyEvent) : KeyboardApp κ :=
  if event.state = .pressed ∧ shortcutModifiersActive app.modifiers ∧
      app.handleViewShortcut id event.logicalKey then app
  else
    match (shortcutKeycode event.physicalKey).or (namedKeycode event.logicalKey) with
    | none => app.handleNamedKey ime id event true
    | some keycode =>
      if event.state = .pressed then
        (app.flushComposer ime id).sendTrackedGuestKey id keycode .pressed
      else if !app.keys.pressedGuestKeys.contains keycode then app
      else app.sendTrackedGuestKey id keycode .released

def handleKeyboard (app : KeyboardApp κ) (id : UInt64) (event : KeyEvent) : KeyboardApp κ :=
  match guestModifierKeycode event.physicalKey event.logicalKey with
  | some keycode =>
    { app with keys := app.keys.sendTrackedGuestModifierKey id keycode event.state }
  | none =>
    if event.state = .pressed ∧ !event.isRepeat ∧ isWindowDumpShortcut app.modifiers event.logicalKey then
      -- the windows are listed on the viewer's own standard error
      app
    else if event.state = .pressed ∧ !event.isRepeat ∧
        isFullscreenShortcut app.modifiers event.logicalKey then
      app.sendInput (.setFullscreen id ((app.windows.get? id).any fun view => !view.fullscreen))
    else if event.state = .pressed ∧ isMacosEmojiPickerShortcut event.physicalKey app.modifiers then
      app.flushComposer ime id
    else if isEmojiPickerReleaseToSwallow event.state event.physicalKey app.modifiers then app
    else if isTerminalNewTabShortcut event app.modifiers (app.targetIsTerminal id) then
      app.sendTerminalNewTab ime id
    else
      let app :=
        if event.state = .pressed ∧ (printableKeyboardText event.text).isSome then
          app.clearStaleShortcutModifiersForText ime id
        else app
      if keyboardCommandModifiersActive app.modifiers then app.handleCommandKey ime id event
      else app.handleNamedKey ime id event false

/-! ## Translations

Which keycode a key event is forwarded as, if it is not one of a modifier. -/

/-- The app after the modifiers that a text shows to be stale were cleared. -/
def withTextModifiers (app : KeyboardApp κ) (id : UInt64) (event : KeyEvent) : KeyboardApp κ :=
  if (printableKeyboardText event.text).isSome then app.clearStaleShortcutModifiersForText ime id
  else app

/-- The keycode of a press. -/
def pressKeycode (app : KeyboardApp κ) (id : UInt64) (event : KeyEvent) : Option UInt32 :=
  if (!event.isRepeat && (isWindowDumpShortcut app.modifiers event.logicalKey ||
      isFullscreenShortcut app.modifiers event.logicalKey)) ||
      isMacosEmojiPickerShortcut event.physicalKey app.modifiers ||
      isTerminalNewTabShortcut event app.modifiers (app.targetIsTerminal id) then none
  else
    let app := app.withTextModifiers ime id event
    if keyboardCommandModifiersActive app.modifiers then
      if shortcutModifiersActive app.modifiers && app.handleViewShortcut id event.logicalKey then none
      else (shortcutKeycode event.physicalKey).or (namedKeycode event.logicalKey)
    else
      (namedKeycode event.logicalKey).filter fun keycode =>
        !(keycode = keyBackspace && !app.composerIsEmpty ime id)

/-- The keycode of a release. -/
def releaseKeycode (modifiers : ModifiersState) (event : KeyEvent) : Option UInt32 :=
  if isEmojiPickerReleaseToSwallow .released event.physicalKey modifiers then none
  else if keyboardCommandModifiersActive modifiers then
    (shortcutKeycode event.physicalKey).or (namedKeycode event.logicalKey)
  else (namedKeycode event.logicalKey).or (shortcutKeycode event.physicalKey)

theorem shortcutKeycode_ne_modifier {physical : PhysicalKey} {keycode : UInt32}
    (h : shortcutKeycode physical = some keycode) : keycode ∉ guestModifierKeycodes := by
  cases physical with
  | unidentified n => cases h
  | code code => cases code <;> cases h <;> decide

theorem namedKeycode_ne_modifier {logical : Key} {keycode : UInt32}
    (h : namedKeycode logical = some keycode) : keycode ∉ guestModifierKeycodes := by
  cases logical with
  | named key => cases key <;> cases h <;> decide
  | _ => cases h

theorem guestModifierKeycode_mem {physical : PhysicalKey} {logical : Key} {keycode : UInt32}
    (h : guestModifierKeycode physical logical = some keycode) : keycode ∈ guestModifierKeycodes := by
  unfold guestModifierKeycode at h
  split at h <;> try (cases h; decide)
  split at h <;> cases h <;> decide

/-! ## What a key event does to the ledger -/

variable {app : KeyboardApp κ} {id : UInt64} {event : KeyEvent}

theorem foldl_sendInput (events : List InputEvent) (app : KeyboardApp κ) :
    events.foldl sendInput app = { app with keys := app.keys.log events } := by
  induction events generalizing app with
  | nil => simp [KeyLedger.log]
  | cons event events ih =>
    rw [List.foldl_cons, ih]
    simp [sendInput, KeyLedger.sendInput, KeyLedger.log]

theorem quiet_composerActions (id : UInt64) (actions : List ComposerAction) :
    KeyLedger.Quiet (actions.filterMap (ComposerAction.input id)) := by
  refine KeyLedger.quiet_of_not_key fun event hevent i keycode state heq => ?_
  obtain ⟨action, -, haction⟩ := List.mem_filterMap.1 hevent
  subst heq
  cases action with
  | commit text =>
    simp only [ComposerAction.input] at haction
    split at haction <;> cases haction
  | preedit text => cases text <;> cases haction

theorem compose_keys (app : KeyboardApp κ) (id : UInt64) (op : κ → List ComposerAction × κ) :
    app.keys.Quietly (app.compose id op).keys ∧ (app.compose id op).modifiers = app.modifiers := by
  unfold compose
  split
  · exact ⟨.refl _, rfl⟩
  · rename_i view _
    simp only [sendComposerActions, foldl_sendInput]
    exact ⟨⟨_, quiet_composerActions id _, rfl⟩, trivial⟩

theorem flushComposer_keys (app : KeyboardApp κ) (id : UInt64) :
    app.keys.Quietly (app.flushComposer ime id).keys :=
  (compose_keys app id ime.flush).1

theorem sendInput_keys (app : KeyboardApp κ) {event : InputEvent}
    (h : ∀ id keycode state, event ≠ .key id keycode state) :
    app.keys.Quietly (app.sendInput event).keys :=
  ⟨[event], KeyLedger.quiet_of_not_key fun e he => by rw [List.mem_singleton.1 he]; exact h, rfl⟩

theorem sendHostText_keys (app : KeyboardApp κ) (id : UInt64) (text : String) :
    app.keys.Quietly (app.sendHostText ime id text).keys := by
  unfold sendHostText
  split
  · exact (compose_keys app id _).1
  · exact (flushComposer_keys ime app id).trans (sendInput_keys _ fun _ _ _ h => by cases h)

/-- Everything that the new tab's shortcut presses it releases. -/
theorem sendTerminalNewTab_keys (app : KeyboardApp κ) (id : UInt64) :
    app.keys.Quietly (app.sendTerminalNewTab ime id).keys := by
  have hshift := ((KeyLedger.quiet_nil.tap id 20).tap id keyLeftshift)
  refine (flushComposer_keys ime app id).trans ?_
  simp only [sendTerminalNewTab]
  cases (app.flushComposer ime id).keys.pressedGuestKeys.contains keyLeftctrl with
  | true => exact ⟨_, hshift, by simp [KeyLedger.sendGuestKey, KeyLedger.sendInput, KeyLedger.log]⟩
  | false =>
    exact ⟨_, hshift.tap id keyLeftctrl, by
      simp [KeyLedger.sendGuestKey, KeyLedger.sendInput, KeyLedger.log]⟩

theorem clearStale_keys (app : KeyboardApp κ) (id : UInt64) :
    app.keys.Quietly (app.clearStaleShortcutModifiersForText ime id).keys := by
  unfold clearStaleShortcutModifiersForText
  split
  · exact .refl _
  · exact flushComposer_keys ime { app with modifiers := .empty } id

theorem withTextModifiers_keys (app : KeyboardApp κ) (id : UInt64) (event : KeyEvent) :
    app.keys.Quietly (app.withTextModifiers ime id event).keys := by
  unfold withTextModifiers
  split
  · exact clearStale_keys ime app id
  · exact .refl _

/-- The ledger after a key with this keycode, if it has one. -/
def track (l : KeyLedger) (id : UInt64) (state : ElementState) : Option UInt32 → KeyLedger
  | none => l
  | some keycode => l.sendTrackedGuestKey id keycode state

/-! ### Presses -/

section Pressed

variable (hstate : event.state = .pressed)

include hstate

theorem handleTextKey_pressed (app : KeyboardApp κ) (id : UInt64) (command : Bool) :
    app.keys.Quietly (app.handleTextKey ime id event command).keys := by
  unfold handleTextKey
  rw [if_neg (not_not.2 hstate)]
  split
  · exact .refl _
  split
  · exact .refl _
  split
  · exact .refl _
  · exact sendHostText_keys ime app id _

theorem handleNamedKey_pressed (app : KeyboardApp κ) (id : UInt64) (command : Bool) :
    ∃ l, app.keys.Quietly l ∧
      (app.handleNamedKey ime id event command).keys =
        track l id .pressed ((namedKeycode event.logicalKey).filter fun keycode =>
          !(keycode = keyBackspace && !app.composerIsEmpty ime id)) := by
  unfold handleNamedKey
  cases hkeycode : namedKeycode event.logicalKey with
  | none => exact ⟨_, handleTextKey_pressed ime hstate app id command, rfl⟩
  | some keycode =>
    dsimp only
    rw [if_pos hstate]
    split
    · rename_i hcompose
      have hfilter : Option.filter (fun keycode =>
          !(decide (keycode = keyBackspace) && !app.composerIsEmpty ime id)) (some keycode) = none := by
        simpa [Option.filter] using hcompose
      rw [hfilter]
      exact ⟨_, (compose_keys app id ime.backspace).1, rfl⟩
    · rename_i hcompose
      have hfilter : Option.filter (fun keycode =>
          !(decide (keycode = keyBackspace) && !app.composerIsEmpty ime id)) (some keycode) =
            some keycode := by
        simpa [Option.filter] using hcompose
      rw [hfilter]
      exact ⟨_, flushComposer_keys ime app id, rfl⟩

theorem handleCommandKey_pressed (app : KeyboardApp κ) (id : UInt64) :
    ∃ l, app.keys.Quietly l ∧
      (app.handleCommandKey ime id event).keys =
        track l id .pressed
          (if shortcutModifiersActive app.modifiers && app.handleViewShortcut id event.logicalKey then
            none
          else (shortcutKeycode event.physicalKey).or (namedKeycode event.logicalKey)) := by
  unfold handleCommandKey
  by_cases hview : shortcutModifiersActive app.modifiers = true ∧
      app.handleViewShortcut id event.logicalKey = true
  · rw [if_pos ⟨hstate, hview⟩, if_pos (by simpa using hview)]
    exact ⟨_, .refl _, rfl⟩
  · rw [if_neg fun h => hview h.2, if_neg (by simpa using hview)]
    cases hkeycode : (shortcutKeycode event.physicalKey).or (namedKeycode event.logicalKey) with
    | none =>
      have hnamed : namedKeycode event.logicalKey = none := (Option.or_eq_none_iff.1 hkeycode).2
      obtain ⟨l, hquiet, hkeys⟩ := handleNamedKey_pressed ime hstate app id true
      rw [hnamed] at hkeys
      exact ⟨l, hquiet, hkeys⟩
    | some keycode =>
      dsimp only
      rw [if_pos hstate]
      exact ⟨_, flushComposer_keys ime app id, rfl⟩

/-- A press that is not a modifier's. -/
theorem handleKeyboard_pressed (app : KeyboardApp κ) (id : UInt64)
    (hmodifier : guestModifierKeycode event.physicalKey event.logicalKey = none) :
    ∃ l, app.keys.Quietly l ∧
      (app.handleKeyboard ime id event).keys = track l id .pressed (app.pressKeycode ime id event) := by
  have hswallow : isEmojiPickerReleaseToSwallow .pressed event.physicalKey app.modifiers = false := by
    simp [isEmojiPickerReleaseToSwallow]
  simp only [handleKeyboard, hmodifier, hstate, true_and, hswallow, Bool.false_eq_true, if_false]
  by_cases hdump : (!event.isRepeat) = true ∧ isWindowDumpShortcut app.modifiers event.logicalKey = true
  · rw [if_pos hdump, pressKeycode, if_pos (by simp [hdump.1, hdump.2])]
    exact ⟨_, .refl _, rfl⟩
  rw [if_neg hdump]
  by_cases hfull : (!event.isRepeat) = true ∧ isFullscreenShortcut app.modifiers event.logicalKey = true
  · rw [if_pos hfull, pressKeycode, if_pos (by simp [hfull.1, hfull.2])]
    exact ⟨_, sendInput_keys app (fun _ _ _ h => by cases h), rfl⟩
  rw [if_neg hfull]
  by_cases hemoji : isMacosEmojiPickerShortcut event.physicalKey app.modifiers = true
  · rw [if_pos hemoji, pressKeycode, if_pos (by simp [hemoji])]
    exact ⟨_, flushComposer_keys ime app id, rfl⟩
  rw [if_neg hemoji]
  by_cases htab : isTerminalNewTabShortcut event app.modifiers (app.targetIsTerminal id) = true
  · rw [if_pos htab, pressKeycode, if_pos (by simp [htab])]
    exact ⟨_, sendTerminalNewTab_keys ime app id, rfl⟩
  have hnone : ¬ (((!event.isRepeat && (isWindowDumpShortcut app.modifiers event.logicalKey ||
      isFullscreenShortcut app.modifiers event.logicalKey)) ||
      isMacosEmojiPickerShortcut event.physicalKey app.modifiers ||
      isTerminalNewTabShortcut event app.modifiers (app.targetIsTerminal id)) = true) := by
    simp only [Bool.or_eq_true, Bool.and_eq_true]
    rintro ((⟨hrepeat, hdump' | hfull'⟩ | hemoji') | htab')
    · exact hdump ⟨hrepeat, hdump'⟩
    · exact hfull ⟨hrepeat, hfull'⟩
    · exact hemoji hemoji'
    · exact htab htab'
  rw [if_neg htab, pressKeycode, if_neg hnone]
  have htext := withTextModifiers_keys ime app id event
  change ∃ l, app.keys.Quietly l ∧
    (if keyboardCommandModifiersActive (app.withTextModifiers ime id event).modifiers then
      (app.withTextModifiers ime id event).handleCommandKey ime id event
    else (app.withTextModifiers ime id event).handleNamedKey ime id event false).keys = _
  dsimp only
  split
  · obtain ⟨l, hquiet, hkeys⟩ :=
      handleCommandKey_pressed ime hstate (app.withTextModifiers ime id event) id
    exact ⟨l, htext.trans hquiet, hkeys⟩
  · obtain ⟨l, hquiet, hkeys⟩ :=
      handleNamedKey_pressed ime hstate (app.withTextModifiers ime id event) id false
    exact ⟨l, htext.trans hquiet, hkeys⟩

end Pressed

/-! ### Releases -/

section Released

variable (hstate : event.state = .released)

/-- A key that is not held has nothing to release. -/
theorem release_unheld {l : KeyLedger} {keycode : UInt32}
    (h : ¬ l.pressedGuestKeys.contains keycode) :
    l.sendTrackedGuestKey id keycode .released = l := by
  have hnone : l.pressedGuestKeys.get? keycode = none := by simpa [Table.contains] using h
  simp [KeyLedger.sendTrackedGuestKey, hnone]

include hstate

theorem handleTextKey_released (app : KeyboardApp κ) (id : UInt64) (command : Bool) :
    (app.handleTextKey ime id event command).keys =
      track app.keys id .released (shortcutKeycode event.physicalKey) := by
  unfold handleTextKey
  rw [if_pos (by rw [hstate]; exact fun h => by cases h)]
  cases hkeycode : shortcutKeycode event.physicalKey with
  | none => rfl
  | some keycode =>
    by_cases hheld : app.keys.pressedGuestKeys.contains keycode
    · simp only [Option.filter, hheld, if_true]
      rfl
    · simp only [Option.filter, hheld, Bool.false_eq_true, if_false, track]
      exact (release_unheld hheld).symm

theorem handleNamedKey_released (app : KeyboardApp κ) (id : UInt64) (command : Bool) :
    (app.handleNamedKey ime id event command).keys =
      track app.keys id .released
        ((namedKeycode event.logicalKey).or (shortcutKeycode event.physicalKey)) := by
  unfold handleNamedKey
  cases hkeycode : namedKeycode event.logicalKey with
  | none => exact handleTextKey_released ime hstate app id command
  | some keycode =>
    dsimp only
    rw [if_neg (by rw [hstate]; exact fun h => by cases h)]
    rfl

theorem handleCommandKey_released (app : KeyboardApp κ) (id : UInt64) :
    (app.handleCommandKey ime id event).keys =
      track app.keys id .released
        ((shortcutKeycode event.physicalKey).or (namedKeycode event.logicalKey)) := by
  have hnot : ¬ event.state = .pressed := by
    rw [hstate]
    exact fun h => by cases h
  unfold handleCommandKey
  rw [if_neg fun h => hnot h.1]
  cases hkeycode : (shortcutKeycode event.physicalKey).or (namedKeycode event.logicalKey) with
  | none =>
    obtain ⟨hshortcut, hnamed⟩ := Option.or_eq_none_iff.1 hkeycode
    rw [handleNamedKey_released ime hstate, hshortcut, hnamed]
    rfl
  | some keycode =>
    dsimp only
    rw [if_neg hnot]
    by_cases hheld : app.keys.pressedGuestKeys.contains keycode
    · simp only [hheld, Bool.not_true, Bool.false_eq_true, if_false]
      rfl
    · simp only [hheld, Bool.not_false, if_true, track]
      exact (release_unheld hheld).symm

/-- A release that is not a modifier's. -/
theorem handleKeyboard_released (app : KeyboardApp κ) (id : UInt64)
    (hmodifier : guestModifierKeycode event.physicalKey event.logicalKey = none) :
    (app.handleKeyboard ime id event).keys =
      track app.keys id .released (releaseKeycode app.modifiers event) := by
  have hterminal : isTerminalNewTabShortcut event app.modifiers (app.targetIsTerminal id) = false := by
    simp [isTerminalNewTabShortcut, hstate]
  simp only [handleKeyboard, hmodifier, hstate, reduceCtorEq, false_and, if_false, releaseKeycode,
    hterminal, Bool.false_eq_true]
  split
  · rfl
  split
  · exact handleCommandKey_released ime hstate app id
  · exact handleNamedKey_released ime hstate app id false

end Released

end KeyboardApp
end VBox
