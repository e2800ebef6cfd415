import Mathlib.Data.List.Infix
import VBox.Lib.Runs
import VBox.Lib.Table
import VBox.Proto.Message

/-!
# Session.TextInput

Text on its way to the guest (`inject_text` and what it calls in
`crates/server/src/wayland_session/mod.rs`, and the requests of `zwp_text_input_v3`).

Text goes to the text input of the focused client. While the client has it disabled, text with a
character that has a key is typed at once on the keyboard, and other text waits in a queue.

* `Typing.delivered_iff`: which runs deliver the texts complete and in order.
-/

namespace VBox

/-! ## Keys for characters -/

/-- The characters that have a key, with its keycode and whether Shift is held. -/
def asciiKeycodes : List (Char × UInt32 × Bool) :=
  [('1', 2, false), ('2', 3, false), ('3', 4, false), ('4', 5, false), ('5', 6, false),
    ('6', 7, false), ('7', 8, false), ('8', 9, false), ('9', 10, false), ('0', 11, false),
    ('!', 2, true), ('@', 3, true), ('#', 4, true), ('$', 5, true), ('%', 6, true), ('^', 7, true),
    ('&', 8, true), ('*', 9, true), ('(', 10, true), (')', 11, true), ('-', 12, false),
    ('_', 12, true), ('=', 13, false), ('+', 13, true), ('\t', 15, false), ('q', 16, false),
    ('Q', 16, true), ('w', 17, false), ('W', 17, true), ('e', 18, false), ('E', 18, true),
    ('r', 19, false), ('R', 19, true), ('t', 20, false), ('T', 20, true), ('y', 21, false),
    ('Y', 21, true), ('u', 22, false), ('U', 22, true), ('i', 23, false), ('I', 23, true),
    ('o', 24, false), ('O', 24, true), ('p', 25, false), ('P', 25, true), ('[', 26, false),
    (Char.ofNat 123, 26, true), (']', 27, false), (Char.ofNat 125, 27, true), ('\n', 28, false),
    ('\r', 28, false),
    ('a', 30, false), ('A', 30, true), ('s', 31, false), ('S', 31, true), ('d', 32, false),
    ('D', 32, true), ('f', 33, false), ('F', 33, true), ('g', 34, false), ('G', 34, true),
    ('h', 35, false), ('H', 35, true), ('j', 36, false), ('J', 36, true), ('k', 37, false),
    ('K', 37, true), ('l', 38, false), ('L', 38, true), (';', 39, false), (':', 39, true),
    (Char.ofNat 39, 40, false), (Char.ofNat 34, 40, true), (Char.ofNat 96, 41, false),
    ('~', 41, true), (Char.ofNat 92, 43, false),
    ('|', 43, true), ('z', 44, false), ('Z', 44, true), ('x', 45, false), ('X', 45, true),
    ('c', 46, false), ('C', 46, true), ('v', 47, false), ('V', 47, true), ('b', 48, false),
    ('B', 48, true), ('n', 49, false), ('N', 49, true), ('m', 50, false), ('M', 50, true),
    (',', 51, false), ('<', 51, true), ('.', 52, false), ('>', 52, true), ('/', 53, false),
    ('?', 53, true), (' ', 57, false)]

def asciiKeycode (ch : Char) : Option (UInt32 × Bool) := asciiKeycodes.lookup ch

/-- The key events for a character: `synthesize_ascii_text`, for one character of its loop. -/
def characterKeys (ch : Char) : Option (List (UInt32 × InputKeyState)) :=
  (asciiKeycode ch).map fun (keycode, shifted) =>
    (if shifted then [(42, .pressed)] else []) ++
      [(keycode, .pressed), (keycode, .released)] ++
      (if shifted then [(42, .released)] else [])

def isMapped (ch : Char) : Bool := (asciiKeycode ch).isSome

/-! ## Text inputs -/

/-- A client of the compositor. -/
structure WaylandClient where
  n : Nat
  deriving DecidableEq

/-- A `zwp_text_input_v3` object, of the client that made it. -/
structure VBoxTextInput where
  resource : Nat
  client : WaylandClient
  serial : UInt32
  enabled : Bool
  pendingEnabled : Option Bool

inductive TextInputRequest where
  | enable
  | disable
  /-- surrounding text, its cause, the content type and the cursor rectangle, which are not used -/
  | describe
  | commit
  | destroy

/-- With whether the events that wait are handled again. -/
def VBoxTextInput.request (input : VBoxTextInput) : TextInputRequest → VBoxTextInput × Bool
  | .enable => ({ input with pendingEnabled := some true }, false)
  | .disable => ({ input with pendingEnabled := some false }, false)
  | .describe => (input, false)
  | .commit =>
    let serial := if input.serial = UInt32.ofNat (2 ^ 32 - 1) then input.serial else input.serial + 1
    match input.pendingEnabled with
    | none => ({ input with serial }, false)
    | some enabled => ({ input with serial, enabled, pendingEnabled := none }, enabled)
  | .destroy => (input, false)

/-- A request for the first text input with this resource. -/
def requestTextInput (resource : Nat) (request : TextInputRequest) :
    List VBoxTextInput → List VBoxTextInput × Bool
  | [] => ([], false)
  | input :: inputs =>
    if input.resource = resource then
      let (input, flush) := input.request request
      (input :: inputs, flush)
    else
      let (inputs, flush) := requestTextInput resource request inputs
      (input :: inputs, flush)

/-! ## The app -/

/-- The input events that have to do with text. -/
inductive TextEvent where
  | text (id : UInt64) (text : String)
  | preedit (id : UInt64) (text : String) (cursorBegin cursorEnd : Int32)

/-- What the guest gets. -/
inductive TextDelivery where
  | commitString (resource : Nat) (text : String) (serial : UInt32)
  | preeditString (resource : Nat) (text : Option String) (cursorBegin cursorEnd : Int32) (serial : UInt32)
  | typed (id : UInt64) (ch : Char) (keys : List (UInt32 × InputKeyState))

inductive TextInputDelivery where
  | sent
  | waitingForEnable
  | unavailable
  deriving DecidableEq

def pendingTextInputLimit : Nat := 32

/-- `windows` has the client of each window's surface. -/
structure TextApp where
  windows : Table UInt64 WaylandClient
  activeWindowId : Option UInt64
  textInputs : List VBoxTextInput
  pendingTextInput : List TextEvent
  log : List TextDelivery

namespace TextApp

/-- What `focus_window` does to the state here. -/
def focusWindow (app : TextApp) (id : UInt64) : TextApp :=
  if app.windows.contains id then { app with activeWindowId := some id } else app

/-- The client of the active surface. -/
def activeClient (app : TextApp) : Option WaylandClient :=
  app.activeWindowId.bind app.windows.get?

/-- The text inputs of the active client. -/
def clientTextInputs (app : TextApp) (client : WaylandClient) : List VBoxTextInput :=
  app.textInputs.filter fun input => input.client = client

/-- The loops of `commit_text_input` and `preedit_text_input`: the enabled text inputs of the active
client get what `deliver` makes of them. -/
def deliver (app : TextApp) (deliver : VBoxTextInput → TextDelivery) : TextInputDelivery × TextApp :=
  match app.activeClient with
  | none => (.unavailable, app)
  | some client =>
    let inputs := app.clientTextInputs client
    let enabled := inputs.filter (·.enabled)
    (if !enabled.isEmpty then .sent else if !inputs.isEmpty then .waitingForEnable else .unavailable,
      { app with log := app.log ++ enabled.map deliver })

def commitTextInput (app : TextApp) (text : String) : TextInputDelivery × TextApp :=
  if text.isEmpty then (.sent, app)
  else app.deliver fun input => .commitString input.resource text input.serial

/-- With whether any character was typed. A character without a key is left out. -/
def synthesizeAsciiText (app : TextApp) (id : UInt64) (text : String) : Bool × TextApp :=
  let app := app.focusWindow id
  (text.toList.any isMapped,
    { app with log := app.log ++ text.toList.filterMap fun ch => (characterKeys ch).map (.typed id ch) })

def queuePendingTextInput (app : TextApp) (event : TextEvent) : TextApp :=
  if app.pendingTextInput.length ≥ pendingTextInputLimit then app
  else { app with pendingTextInput := app.pendingTextInput ++ [event] }

def injectText (app : TextApp) (id : UInt64) (text : String) : TextApp :=
  let app := app.focusWindow id
  let (delivery, app) := app.commitTextInput text
  match delivery with
  | .sent => app
  | .waitingForEnable =>
    let (sentAny, app) := app.synthesizeAsciiText id text
    if sentAny then app else app.queuePendingTextInput (.text id text)
  | .unavailable => (app.synthesizeAsciiText id text).2

def preeditTextInput (app : TextApp) (id : UInt64) (text : String) (cursorBegin cursorEnd : Int32) :
    TextApp :=
  let app := app.focusWindow id
  let preedit := if text.isEmpty then none else some text
  let (delivery, app) := app.deliver fun input =>
    .preeditString input.resource preedit cursorBegin cursorEnd input.serial
  if delivery = .waitingForEnable then
    app.queuePendingTextInput (.preedit id text cursorBegin cursorEnd)
  else app

/-- `handle_input_event`, for the events that have to do with text. -/
def handleInputEvent (app : TextApp) : TextEvent → TextApp
  | .text id text => app.injectText id text
  | .preedit id text cursorBegin cursorEnd => app.preeditTextInput id text cursorBegin cursorEnd

def flushPendingTextInput (app : TextApp) : TextApp :=
  app.pendingTextInput.foldl handleInputEvent { app with pendingTextInput := [] }

/-- A request of a `zwp_text_input_v3` object. -/
def request (app : TextApp) (resource : Nat) (request : TextInputRequest) : TextApp :=
  let (textInputs, flush) := requestTextInput resource request app.textInputs
  let app := { app with textInputs }
  if flush then app.flushPendingTextInput else app

end TextApp

/-! ## What an event does -/

def TextDelivery.chars : TextDelivery → List Char
  | .commitString _ text _ => text.toList
  | .preeditString .. => []
  | .typed _ ch _ => [ch]

def TextEvent.chars : TextEvent → List Char
  | .text _ t => t.toList
  | .preedit .. => []

namespace TextApp

/-- The characters that reached the guest. -/
def delivered (app : TextApp) : List Char := app.log.flatMap TextDelivery.chars

/-- The characters of the texts that wait. -/
def waiting (app : TextApp) : List Char := app.pendingTextInput.flatMap TextEvent.chars

/-- A window whose client has one text input. -/
def Owns (app : TextApp) (id : UInt64) (input : VBoxTextInput) : Prop :=
  ∃ client, app.windows.get? id = some client ∧ app.clientTextInputs client = [input]

/-- What may stand in the queue: an event for the window, without a character that has a key. -/
def Waits (id : UInt64) : TextEvent → Prop
  | .text id' text => id' = id ∧ text ≠ "" ∧ ∀ ch ∈ text.toList, ¬ isMapped ch
  | .preedit id' .. => id' = id

/-- An event for the window. -/
def For (id : UInt64) : TextEvent → Prop
  | .text id' _ => id' = id
  | .preedit id' .. => id' = id

variable {app : TextApp} {id : UInt64} {input : VBoxTextInput}

theorem Owns.focusWindow (h : app.Owns id input) :
    app.focusWindow id = { app with activeWindowId := some id } := by
  obtain ⟨client, hclient, -⟩ := h
  rw [TextApp.focusWindow, if_pos (Table.contains_of_get? hclient)]

/-- What a delivery to the window's text input does. -/
theorem Owns.deliver (h : app.Owns id input) (f : VBoxTextInput → TextDelivery) :
    (app.focusWindow id).deliver f =
      if input.enabled then (.sent, { app with activeWindowId := some id, log := app.log ++ [f input] })
      else (.waitingForEnable, { app with activeWindowId := some id }) := by
  rw [h.focusWindow]
  obtain ⟨client, hclient, hinputs⟩ := h
  have hactive : activeClient { app with activeWindowId := some id } = some client := hclient
  have hmine : clientTextInputs { app with activeWindowId := some id } client = [input] := hinputs
  unfold TextApp.deliver
  rw [hactive]
  cases henabled : input.enabled <;> simp [hmine, henabled]

theorem isEmpty_eq_false {text : String} (h : text ≠ "") : text.isEmpty = false := by
  simpa using h

/-- Through an enabled text input everything goes at once. -/
theorem Owns.handle_enabled (h : app.Owns id input) (henabled : input.enabled = true)
    {event : TextEvent} (hfor : For id event) :
    ∃ log, app.handleInputEvent event = { app with activeWindowId := some id, log := app.log ++ log } ∧
      log.flatMap TextDelivery.chars = event.chars := by
  cases event with
  | text id' text =>
    obtain rfl : id' = id := hfor
    by_cases hempty : text = ""
    · refine ⟨[], ?_, by simp [TextEvent.chars, hempty]⟩
      simp [handleInputEvent, injectText, commitTextInput, hempty, h.focusWindow]
    · refine ⟨[.commitString input.resource text input.serial], ?_, by
        simp [TextDelivery.chars, TextEvent.chars]⟩
      simp [handleInputEvent, injectText, commitTextInput, isEmpty_eq_false hempty, h.deliver,
        henabled]
  | preedit id' text cursorBegin cursorEnd =>
    obtain rfl : id' = id := hfor
    refine ⟨[.preeditString input.resource (if text.isEmpty then none else some text) cursorBegin
      cursorEnd input.serial], ?_, rfl⟩
    simp [handleInputEvent, preeditTextInput, h.deliver, henabled]

theorem filterMap_characterKeys (id : UInt64) (chars : List Char) :
    (chars.filterMap fun ch => (characterKeys ch).map (.typed id ch)).flatMap TextDelivery.chars =
      chars.filter isMapped := by
  induction chars with
  | nil => rfl
  | cons ch chars ih =>
    cases hkey : asciiKeycode ch <;>
      simp [characterKeys, isMapped, hkey, TextDelivery.chars] at ih ⊢ <;> exact ih

theorem Owns.of_eq (h : app.Owns id input) (app' : TextApp) (hwindows : app'.windows = app.windows)
    (hinputs : app'.textInputs = app.textInputs) : app'.Owns id input := by
  obtain ⟨client, hclient, hmine⟩ := h
  refine ⟨client, by rw [hwindows, hclient], ?_⟩
  rw [← hmine, clientTextInputs, clientTextInputs, hinputs]

/-- While the text input is disabled, a text is typed if one of its characters has a key, and waits
otherwise. -/
theorem Owns.injectText_disabled (h : app.Owns id input) (hdisabled : input.enabled = false)
    {text : String} (hempty : text ≠ "") :
    app.injectText id text =
      if text.toList.any isMapped then
        { app with
          activeWindowId := some id
          log := app.log ++ text.toList.filterMap fun ch => (characterKeys ch).map (.typed id ch) }
      else
        queuePendingTextInput
          { app with
            activeWindowId := some id
            log := app.log ++ text.toList.filterMap fun ch => (characterKeys ch).map (.typed id ch) }
          (.text id text) := by
  have hfocus : ({ app with activeWindowId := some id } : TextApp).focusWindow id =
      { app with activeWindowId := some id } :=
    (h.of_eq { app with activeWindowId := some id } rfl rfl).focusWindow
  simp only [injectText, commitTextInput, isEmpty_eq_false hempty, h.deliver, hdisabled,
    Bool.false_eq_true, if_false, synthesizeAsciiText, hfocus]

theorem Owns.handle_typed (h : app.Owns id input) (hdisabled : input.enabled = false) (text : String)
    (hmapped : text.toList.any isMapped) :
    ∃ log, app.handleInputEvent (.text id text) =
        { app with activeWindowId := some id, log := app.log ++ log } ∧
      log.flatMap TextDelivery.chars = text.toList.filter isMapped := by
  have hempty : text ≠ "" := by
    rintro rfl
    simp at hmapped
  refine ⟨_, ?_, filterMap_characterKeys id text.toList⟩
  rw [handleInputEvent, h.injectText_disabled hdisabled hempty, if_pos hmapped]

theorem Owns.handle_waits (h : app.Owns id input) (hdisabled : input.enabled = false)
    {event : TextEvent} (hwaits : Waits id event) :
    app.handleInputEvent event =
      queuePendingTextInput { app with activeWindowId := some id } event := by
  cases event with
  | text id' text =>
    obtain ⟨rfl, hempty, hunmapped⟩ := hwaits
    have hnone : ¬ text.toList.any isMapped = true := by
      simpa [List.any_eq_true] using hunmapped
    have hlog : (text.toList.filterMap fun ch =>
        (characterKeys ch).map (TextDelivery.typed id' ch)) = [] := by
      refine List.filterMap_eq_nil_iff.2 fun ch hch => ?_
      have hch' := hunmapped ch hch
      simp only [isMapped, Bool.not_eq_true, Option.isSome_eq_false_iff, Option.isNone_iff_eq_none]
        at hch'
      simp [characterKeys, hch']
    rw [handleInputEvent, h.injectText_disabled hdisabled hempty, if_neg hnone, hlog,
      List.append_nil]
  | preedit id' text cursorBegin cursorEnd =>
    obtain rfl : id' = id := hwaits
    simp [handleInputEvent, preeditTextInput, h.deliver, hdisabled]

/-! ### The queue -/

theorem flush_enabled {events : List TextEvent} (henabled : input.enabled = true)
    (hfor : ∀ e ∈ events, For id e) :
    ∀ {app : TextApp}, app.Owns id input →
      ∃ active log, events.foldl handleInputEvent app =
          { app with activeWindowId := active, log := app.log ++ log } ∧
        log.flatMap TextDelivery.chars = events.flatMap TextEvent.chars := by
  induction events with
  | nil =>
    intro app _
    exact ⟨app.activeWindowId, [], by simp, rfl⟩
  | cons event events ih =>
    intro app h
    obtain ⟨log, heq, hlog⟩ := h.handle_enabled henabled (hfor event List.mem_cons_self)
    obtain ⟨active, log', heq', hlog'⟩ := ih (fun e he => hfor e (List.mem_cons_of_mem _ he))
      (h.of_eq { app with activeWindowId := some id, log := app.log ++ log } rfl rfl)
    refine ⟨active, log ++ log', ?_, ?_⟩
    · rw [List.foldl_cons, heq, heq']
      simp
    · simp [hlog, hlog']

/-- While the text input is disabled, the queue comes back as it was. -/
theorem flush_disabled {events : List TextEvent} (hdisabled : input.enabled = false)
    (hwaits : ∀ e ∈ events, Waits id e) :
    ∀ {app : TextApp}, app.Owns id input →
      app.pendingTextInput.length + events.length ≤ pendingTextInputLimit →
      ∃ active, events.foldl handleInputEvent app =
        { app with activeWindowId := active, pendingTextInput := app.pendingTextInput ++ events } := by
  induction events with
  | nil =>
    intro app _ _
    exact ⟨app.activeWindowId, by simp⟩
  | cons event events ih =>
    intro app h hroom
    simp only [List.length_cons] at hroom
    have hnot : ¬ app.pendingTextInput.length ≥ pendingTextInputLimit := by omega
    have heq := h.handle_waits hdisabled (hwaits event List.mem_cons_self)
    rw [queuePendingTextInput, if_neg hnot] at heq
    obtain ⟨active, heq'⟩ := ih (fun e he => hwaits e (List.mem_cons_of_mem _ he))
      (h.of_eq { app with
        activeWindowId := some id, pendingTextInput := app.pendingTextInput ++ [event] } rfl rfl)
      (by simp; omega)
    refine ⟨active, ?_⟩
    rw [List.foldl_cons, heq, heq']
    simp

theorem Waits.for {event : TextEvent} (h : Waits id event) : For id event := by
  cases event with
  | text id' text => exact h.1
  | preedit id' text cursorBegin cursorEnd => exact h

theorem request_client (input : VBoxTextInput) (request : TextInputRequest) :
    (input.request request).1.client = input.client := by
  cases request with
  | commit => cases hpending : input.pendingEnabled <;> simp [VBoxTextInput.request, hpending]
  | _ => rfl

theorem map_client_requestTextInput (resource : Nat) (request : TextInputRequest)
    (inputs : List VBoxTextInput) :
    (requestTextInput resource request inputs).1.map (·.client) = inputs.map (·.client) := by
  induction inputs with
  | nil => rfl
  | cons input inputs ih =>
    unfold requestTextInput
    split
    · simp [request_client]
    · simp [ih]

/-- A request leaves the window's text input as it is, or it is for that text input and says whether
the queue is flushed. -/
theorem filter_requestTextInput (resource : Nat) (request : TextInputRequest) (client : WaylandClient)
    {inputs : List VBoxTextInput} (h : (inputs.filter fun i => i.client = client) = [input]) :
    ∃ input', ((requestTextInput resource request inputs).1.filter fun i => i.client = client) =
        [input'] ∧
      (input' = input ∨
        (input', (requestTextInput resource request inputs).2) = input.request request) := by
  induction inputs with
  | nil => cases h
  | cons first inputs ih =>
    by_cases hclient : first.client = client
    · obtain ⟨rfl, hnone⟩ : first = input ∧ (inputs.filter fun i => i.client = client) = [] := by
        simpa [hclient] using h
      unfold requestTextInput
      by_cases hresource : first.resource = resource
      · refine ⟨(first.request request).1, ?_, .inr ?_⟩
        · simp [hresource, request_client, hclient, hnone]
        · simp [hresource]
      · -- none of the others is the client's, before the request or after it
        have hothers : ((requestTextInput resource request inputs).1.filter
            fun i => i.client = client) = [] := by
          rw [List.filter_eq_nil_iff] at hnone ⊢
          intro i hi
          have hmem : i.client ∈ inputs.map (·.client) := by
            rw [← map_client_requestTextInput resource request inputs]
            exact List.mem_map_of_mem hi
          obtain ⟨j, hj, heq⟩ := List.mem_map.1 hmem
          rw [← heq]
          exact hnone j hj
        exact ⟨first, by simp [hresource, hclient, hothers], .inl rfl⟩
    · have hrest : (inputs.filter fun i => i.client = client) = [input] := by
        simpa [hclient] using h
      unfold requestTextInput
      by_cases hresource : first.resource = resource
      · exact ⟨input, by simp [hresource, request_client, hclient, hrest], .inl rfl⟩
      · obtain ⟨input', hinput', hor⟩ := ih hrest
        exact ⟨input', by simp [hresource, hclient, hinput'], by simpa [hresource] using hor⟩

end TextApp

/-! ## Runs -/

/-- Text for one window, and requests of the text inputs. -/
inductive TypingStep where
  | text (text : String)
  | preedit (text : String) (cursorBegin cursorEnd : Int32)
  | request (resource : Nat) (request : TextInputRequest)

/-- The app, with all that was typed. -/
structure Typing where
  app : TextApp
  typed : List Char

namespace Typing

open TextApp

def step (id : UInt64) (s : Typing) : TypingStep → Typing
  | .text text => { app := s.app.handleInputEvent (.text id text), typed := s.typed ++ text.toList }
  | .preedit text cursorBegin cursorEnd =>
    { s with app := s.app.handleInputEvent (.preedit id text cursorBegin cursorEnd) }
  | .request resource request => { s with app := s.app.request resource request }

def run (id : UInt64) (app : TextApp) (steps : List TypingStep) : Typing :=
  steps.foldl (step id) { app, typed := [] }

/-- The characters that reached the guest, and after them those that wait, are those typed. -/
def InOrder (s : Typing) : Prop := s.app.delivered ++ s.app.waiting = s.typed

/-- Whether the window's client has an enabled text input. -/
def Enabled (id : UInt64) (s : Typing) : Prop := ∃ input, s.app.Owns id input ∧ input.enabled = true

/-- A text that comes while the text input is disabled has no character with a key, or only such
characters and no text waits. -/
def Orderly (id : UInt64) (s : Typing) : TypingStep → Prop
  | .text text => s.Enabled id ∨ (∀ ch ∈ text.toList, ¬ isMapped ch) ∨
      ((∀ ch ∈ text.toList, isMapped ch) ∧ s.app.waiting = [])
  | _ => True

/-- The queue has room for a text that would wait. -/
def HasRoom (id : UInt64) (s : Typing) : TypingStep → Prop
  | .text text => s.Enabled id ∨ text = "" ∨ (∃ ch ∈ text.toList, isMapped ch) ∨
      s.app.pendingTextInput.length < pendingTextInputLimit
  | _ => True

structure Queued (id : UInt64) (s : Typing) : Prop where
  owns : ∃ input, s.app.Owns id input ∧ (input.enabled = true → s.app.pendingTextInput = [])
  waits : ∀ e ∈ s.app.pendingTextInput, Waits id e
  room : s.app.pendingTextInput.length ≤ pendingTextInputLimit
  short : s.app.delivered.length + s.app.waiting.length ≤ s.typed.length

variable {id : UInt64} {s : Typing} {input : VBoxTextInput}

theorem Queued.unmapped (h : s.Queued id) : ∀ ch ∈ s.app.waiting, ¬ isMapped ch := by
  intro ch hch
  obtain ⟨event, hevent, hmem⟩ := List.mem_flatMap.1 hch
  have hwaits := h.waits event hevent
  cases event with
  | text id' text => exact hwaits.2.2 ch hmem
  | preedit id' text cursorBegin cursorEnd => cases hmem

theorem owns_unique {app : TextApp} {input' : VBoxTextInput} (h : app.Owns id input)
    (h' : app.Owns id input') : input = input' := by
  obtain ⟨client, hclient, hmine⟩ := h
  obtain ⟨client', hclient', hmine'⟩ := h'
  obtain rfl : client = client' := Option.some.inj (hclient.symm.trans hclient')
  exact List.singleton_inj.1 (hmine.symm.trans hmine')

theorem enabled_iff (h : s.app.Owns id input) : s.Enabled id ↔ input.enabled = true := by
  constructor
  · rintro ⟨input', h', henabled⟩
    rwa [owns_unique h h']
  · exact fun henabled => ⟨input, h, henabled⟩

/-- Where marked elements are put before unmarked ones that wait, the order is kept only if none
waits, and everything is kept only if all are marked. -/
theorem filter_overtakes_iff {α : Type} {p : α → Bool} {done waiting all text : List α}
    (hwaiting : ∀ a ∈ waiting, ¬ p a) (hsome : ∃ a ∈ text, p a)
    (hshort : done.length + waiting.length ≤ all.length) :
    done ++ text.filter p ++ waiting = all ++ text ↔
      done ++ waiting = all ∧ (∀ a ∈ text, p a) ∧ waiting = [] := by
  constructor
  · intro h
    have hlength := congrArg List.length h
    simp only [List.length_append] at hlength
    have hle := List.length_filter_le p text
    have hall : ∀ a ∈ text, p a := List.length_filter_eq_length_iff.1 (by omega)
    rw [List.filter_eq_self.2 hall] at h
    obtain rfl | ⟨waiting, last, rfl⟩ := List.eq_nil_or_concat waiting
    · rw [List.append_nil] at h ⊢
      exact ⟨List.append_cancel_right h, hall, rfl⟩
    · obtain rfl | ⟨text, last', rfl⟩ := List.eq_nil_or_concat text
      · obtain ⟨a, ha, -⟩ := hsome
        cases ha
      · simp only [List.concat_eq_append, ← List.append_assoc] at h
        have hlast : last = last' := List.singleton_inj.1 (List.append_inj' h rfl).2
        have hmarked := hall last' (by simp)
        exact absurd (hlast ▸ hmarked) (hwaiting last (by simp))
  · rintro ⟨rfl, hall, rfl⟩
    rw [List.filter_eq_self.2 hall]
    simp

/-! ### One step -/

theorem request_enabled (input : VBoxTextInput) (request : TextInputRequest)
    (h : (input.request request).1.enabled = true) :
    (input.request request).2 = true ∨ input.enabled = true := by
  cases request with
  | commit =>
    cases hpending : input.pendingEnabled with
    | none =>
      simp only [VBoxTextInput.request, hpending] at h ⊢
      exact .inr h
    | some enabled =>
      simp only [VBoxTextInput.request, hpending] at h ⊢
      exact .inl h
  | _ => exact .inr h

/-- The characters stay as they are, and in their order. -/
theorem Queued.request (h : s.Queued id) (resource : Nat) (request : TextInputRequest) :
    (s.step id (.request resource request)).Queued id ∧
      ((s.step id (.request resource request)).InOrder ↔ s.InOrder) := by
  obtain ⟨input, ⟨client, hclient, hmine⟩, hempty⟩ := h.owns
  obtain ⟨input', hmine', hor⟩ := filter_requestTextInput resource request client hmine
  simp only [step, TextApp.request]
  generalize hresult : requestTextInput resource request s.app.textInputs = result at hmine' hor
  obtain ⟨inputs, flush⟩ := result
  have howns : Owns { s.app with textInputs := inputs } id input' := ⟨client, hclient, hmine'⟩
  cases flush with
  | false =>
    simp only [Bool.false_eq_true, if_false]
    refine ⟨⟨⟨input', howns, fun henabled => hempty ?_⟩, h.waits, h.room, h.short⟩, Iff.rfl⟩
    obtain rfl | heq := hor
    · exact henabled
    · have henabled' : (input.request request).1.enabled = true := by rw [← heq]; exact henabled
      obtain hflush | hold := request_enabled input request henabled'
      · rw [← heq] at hflush
        cases hflush
      · exact hold
  | true =>
    simp only [if_true, flushPendingTextInput]
    have howns' : Owns { s.app with textInputs := inputs, pendingTextInput := [] } id input' := howns
    cases henabled : input'.enabled with
    | true =>
      obtain ⟨active, log, heq, hlog⟩ := flush_enabled henabled (fun e he => (h.waits e he).for) howns'
      rw [heq]
      have hdelivered : (s.app.log ++ log).flatMap TextDelivery.chars =
          s.app.delivered ++ s.app.waiting := by
        rw [List.flatMap_append, hlog]
        rfl
      refine ⟨⟨⟨input', howns', fun _ => rfl⟩, fun e he => ?_, Nat.zero_le _, ?_⟩, ?_⟩
      · cases he
      · have := h.short
        simp only [delivered, waiting, hdelivered, List.length_append, List.flatMap_nil, List.length_nil]
        exact this
      · simp only [InOrder, delivered, waiting, hdelivered, List.flatMap_nil, List.append_nil]
    | false =>
      obtain ⟨active, heq⟩ := flush_disabled henabled h.waits howns' (by simpa using h.room)
      rw [heq]
      refine ⟨⟨⟨input', howns', fun htrue => ?_⟩, ?_, ?_, ?_⟩, ?_⟩
      · rw [henabled] at htrue
        cases htrue
      · simpa using h.waits
      · simpa using h.room
      · simpa [delivered, waiting] using h.short
      · simp [InOrder, delivered, waiting]

/-- More reached the guest, of what was typed. -/
theorem Queued.logged (h : s.Queued id) (active : Option UInt64) (log : List TextDelivery)
    (text : List Char) (hshort : (log.flatMap TextDelivery.chars).length ≤ text.length) :
    Queued id
        { app := { s.app with activeWindowId := active, log := s.app.log ++ log }
          typed := s.typed ++ text } ∧
      (InOrder
          { app := { s.app with activeWindowId := active, log := s.app.log ++ log }
            typed := s.typed ++ text } ↔
        s.app.delivered ++ log.flatMap TextDelivery.chars ++ s.app.waiting = s.typed ++ text) := by
  have hold := h.short
  refine ⟨⟨h.owns, h.waits, h.room, ?_⟩, ?_⟩
  · simp only [delivered, waiting, List.flatMap_append, List.length_append] at hold ⊢
    omega
  · simp [InOrder, delivered, waiting]

/-- One more event waits. -/
theorem Queued.queued (h : s.Queued id) {event : TextEvent} (hwaits : Waits id event)
    (howns : s.app.Owns id input) (hdisabled : input.enabled = false)
    (hroom : s.app.pendingTextInput.length < pendingTextInputLimit) :
    Queued id
        { app := { s.app with
            activeWindowId := some id, pendingTextInput := s.app.pendingTextInput ++ [event] }
          typed := s.typed ++ event.chars } ∧
      (InOrder
          { app := { s.app with
              activeWindowId := some id, pendingTextInput := s.app.pendingTextInput ++ [event] }
            typed := s.typed ++ event.chars } ↔ s.InOrder) := by
  have hold := h.short
  refine ⟨⟨⟨input, howns, fun htrue => ?_⟩, fun e he => ?_, ?_, ?_⟩, ?_⟩
  · rw [hdisabled] at htrue
    cases htrue
  · obtain he | he := List.mem_append.1 he
    · exact h.waits e he
    · rw [List.mem_singleton.1 he]
      exact hwaits
  · simp only [List.length_append, List.length_singleton]
    omega
  · simp only [delivered, waiting, List.flatMap_append, List.length_append, List.flatMap_singleton]
      at hold ⊢
    omega
  · simp [InOrder, delivered, waiting, ← List.append_assoc]

/-- An event that finds the queue full is dropped. -/
theorem Queued.dropped (h : s.Queued id) (text : List Char) :
    Queued id { app := { s.app with activeWindowId := some id }, typed := s.typed ++ text } ∧
      (InOrder { app := { s.app with activeWindowId := some id }, typed := s.typed ++ text } ↔
        s.InOrder ∧ text = []) := by
  have hold := h.short
  refine ⟨⟨h.owns, h.waits, h.room, ?_⟩, ?_⟩
  · simp only [delivered, waiting, List.length_append] at hold ⊢
    omega
  · simp only [InOrder, delivered, waiting] at hold ⊢
    constructor
    · intro heq
      have hlength := congrArg List.length heq
      simp only [List.length_append] at hlength
      obtain rfl : text = [] := List.length_eq_zero_iff.1 (by omega)
      exact ⟨by simpa using heq, rfl⟩
    · rintro ⟨heq, rfl⟩
      simpa using heq

theorem Queued.preedit (h : s.Queued id) (text : String) (cursorBegin cursorEnd : Int32) :
    (s.step id (.preedit text cursorBegin cursorEnd)).Queued id ∧
      ((s.step id (.preedit text cursorBegin cursorEnd)).InOrder ↔ s.InOrder) := by
  obtain ⟨input, howns, hempty⟩ := h.owns
  simp only [step]
  cases henabled : input.enabled with
  | true =>
    obtain ⟨log, heq, hlog⟩ := howns.handle_enabled henabled
      (show For id (.preedit id text cursorBegin cursorEnd) from rfl)
    have hchars : log.flatMap TextDelivery.chars = [] := hlog
    obtain ⟨hqueued, hiff⟩ := h.logged (some id) log [] (by simp [hchars])
    rw [heq]
    simp only [List.append_nil, hchars] at hqueued hiff
    exact ⟨hqueued, hiff⟩
  | false =>
    have hwaits : Waits id (.preedit id text cursorBegin cursorEnd) := rfl
    rw [howns.handle_waits henabled hwaits, queuePendingTextInput]
    split
    · exact ⟨⟨⟨input, howns, hempty⟩, h.waits, h.room, h.short⟩, Iff.rfl⟩
    · rename_i hroom
      have hqueued := h.queued hwaits howns henabled (Nat.lt_of_not_le hroom)
      simp only [TextEvent.chars, List.append_nil] at hqueued
      exact hqueued

/-- A text for an enabled input is delivered. -/
theorem Queued.text_enabled (h : s.Queued id) (text : String) (howns : s.app.Owns id input)
    (hempty : s.app.pendingTextInput = []) (henabled : input.enabled = true) :
    (s.step id (.text text)).Queued id ∧
      ((s.step id (.text text)).InOrder ↔
        s.InOrder ∧ s.Orderly id (.text text) ∧ s.HasRoom id (.text text)) := by
  simp only [step, Orderly, HasRoom, enabled_iff howns, henabled]
  obtain ⟨log, heq, hlog⟩ := howns.handle_enabled henabled (show For id (.text id text) from rfl)
  have hchars : log.flatMap TextDelivery.chars = text.toList := hlog
  obtain ⟨hqueued, hiff⟩ := h.logged (some id) log text.toList
    (by rw [hchars])
  have hnone : s.app.waiting = [] := by simp [waiting, hempty]
  rw [heq]
  refine ⟨hqueued, hiff.trans ?_⟩
  simp [hchars, InOrder, hnone]

/-- Of a text with a character that has a key, those characters are typed, past the queue. -/
theorem Queued.text_typed (h : s.Queued id) (text : String) (howns : s.app.Owns id input)
    (hdisabled : input.enabled = false) (hmapped : ∃ ch ∈ text.toList, isMapped ch) :
    (s.step id (.text text)).Queued id ∧
      ((s.step id (.text text)).InOrder ↔
        s.InOrder ∧ s.Orderly id (.text text) ∧ s.HasRoom id (.text text)) := by
  simp only [step, Orderly, HasRoom, enabled_iff howns, hdisabled, Bool.false_eq_true, false_or]
  obtain ⟨log, heq, hchars⟩ := howns.handle_typed hdisabled text (List.any_eq_true.2 hmapped)
  obtain ⟨hqueued, hiff⟩ := h.logged (some id) log text.toList
    (by rw [hchars]; exact List.length_filter_le _ _)
  have hsome : ¬ ∀ ch ∈ text.toList, ¬ isMapped ch := by
    obtain ⟨ch, hch, hkey⟩ := hmapped
    exact fun hall => hall ch hch hkey
  rw [heq]
  refine ⟨hqueued, hiff.trans ?_⟩
  rw [hchars, filter_overtakes_iff h.unmapped hmapped h.short]
  simp only [InOrder, hsome, false_or, hmapped, true_or, or_true, and_true]

/-- Any other text waits, if the queue has room. -/
theorem Queued.text_waits (h : s.Queued id) (text : String) (howns : s.app.Owns id input)
    (hdisabled : input.enabled = false) (hunmapped : ∀ ch ∈ text.toList, ¬ isMapped ch) :
    (s.step id (.text text)).Queued id ∧
      ((s.step id (.text text)).InOrder ↔
        s.InOrder ∧ s.Orderly id (.text text) ∧ s.HasRoom id (.text text)) := by
  have hmapped : ¬ ∃ ch ∈ text.toList, isMapped ch :=
    fun ⟨ch, hch, hkey⟩ => hunmapped ch hch hkey
  simp only [step, Orderly, HasRoom, enabled_iff howns, hdisabled, Bool.false_eq_true, false_or]
  by_cases htext : text = ""
  · subst htext
    have heq : s.app.handleInputEvent (.text id "") = { s.app with activeWindowId := some id } := by
      simp [handleInputEvent, injectText, commitTextInput, howns.focusWindow]
    obtain ⟨hqueued, hiff⟩ := h.logged (some id) [] [] (Nat.le_refl _)
    simp only [List.append_nil, List.flatMap_nil] at hqueued hiff
    rw [heq]
    simpa [hiff] using ⟨hqueued, hiff⟩
  · have hwaits : Waits id (.text id text) := ⟨rfl, htext, hunmapped⟩
    rw [howns.handle_waits hdisabled hwaits, queuePendingTextInput]
    split
    · rename_i hfull
      have hnot : ¬ s.app.pendingTextInput.length < pendingTextInputLimit := Nat.not_lt.2 hfull
      obtain ⟨hqueued, hiff⟩ := h.dropped text.toList
      refine ⟨hqueued, hiff.trans ?_⟩
      simp [hmapped, htext, hnot]
    · rename_i hfull
      have hroom : s.app.pendingTextInput.length < pendingTextInputLimit := Nat.lt_of_not_le hfull
      obtain ⟨hqueued, hiff⟩ := h.queued hwaits howns hdisabled hroom
      refine ⟨hqueued, hiff.trans ?_⟩
      simp only [hroom, or_true, and_true, iff_self_and]
      exact fun _ => .inl hunmapped

/-- What a text does to the order, by where it goes. -/
theorem Queued.text (h : s.Queued id) (text : String) :
    (s.step id (.text text)).Queued id ∧
      ((s.step id (.text text)).InOrder ↔
        s.InOrder ∧ s.Orderly id (.text text) ∧ s.HasRoom id (.text text)) := by
  obtain ⟨input, howns, hempty⟩ := h.owns
  cases henabled : input.enabled with
  | true => exact h.text_enabled text howns (hempty henabled) henabled
  | false =>
    by_cases hmapped : ∃ ch ∈ text.toList, isMapped ch
    · exact h.text_typed text howns henabled hmapped
    · exact h.text_waits text howns henabled fun ch hch hkey => hmapped ⟨ch, hch, hkey⟩

theorem Queued.step (h : s.Queued id) (e : TypingStep) :
    (s.step id e).Queued id ∧
      ((s.step id e).InOrder ↔ s.InOrder ∧ s.Orderly id e ∧ s.HasRoom id e) := by
  cases e with
  | text text => exact h.text text
  | preedit text cursorBegin cursorEnd =>
    obtain ⟨hqueued, hiff⟩ := h.preedit text cursorBegin cursorEnd
    exact ⟨hqueued, hiff.trans ⟨fun hin => ⟨hin, trivial, trivial⟩, fun hin => hin.1⟩⟩
  | request resource request =>
    obtain ⟨hqueued, hiff⟩ := h.request resource request
    exact ⟨hqueued, hiff.trans ⟨fun hin => ⟨hin, trivial, trivial⟩, fun hin => hin.1⟩⟩

/-! ### Whole runs -/

end Typing

def TypingStep.chars : TypingStep → List Char
  | .text t => t.toList
  | _ => []

namespace Typing

open TextApp

variable {id : UInt64} {input : VBoxTextInput}

theorem typed_foldl (steps : List TypingStep) (s : Typing) :
    (steps.foldl (step id) s).typed = s.typed ++ steps.flatMap TypingStep.chars := by
  induction steps generalizing s with
  | nil => simp
  | cons e steps ih =>
    rw [List.foldl_cons, ih]
    cases e <;> simp [step, TypingStep.chars]

/-- **Typed text.** Let the client of a window have one text input, with nothing delivered or waiting,
and let the queue never be full. When at the end of a run of texts and requests the text input is
enabled, the guest has exactly the texts, in their order, if and only if every text that came while it
was disabled had no character with a key, or had only such characters and found no text waiting. -/
theorem delivered_iff {app : TextApp} (howns : app.Owns id input) (hpending : app.pendingTextInput = [])
    (hlog : app.log = []) {steps : List TypingStep}
    (hroom : ∀ past e, past ++ [e] <+: steps →
      (run id app past).app.pendingTextInput.length < pendingTextInputLimit)
    (henabled : (run id app steps).Enabled id) :
    (run id app steps).app.delivered = steps.flatMap TypingStep.chars ↔
      ∀ past e, past ++ [e] <+: steps → (run id app past).Orderly id e := by
  have hstart : Queued id { app, typed := [] } := by
    refine ⟨⟨input, howns, fun _ => hpending⟩, ?_, ?_, ?_⟩
    · simp [hpending]
    · simp [hpending]
    · simp [delivered, waiting, hpending, hlog]
  have hinOrder : InOrder { app, typed := [] } := by simp [InOrder, delivered, waiting, hpending, hlog]
  have hqueued : (run id app steps).Queued id :=
    Runs.foldl_inv hstart (fun _ e h => (h.step e).1) steps
  have hnone : (run id app steps).app.waiting = [] := by
    obtain ⟨input', howns', hempty⟩ := hqueued.owns
    rw [waiting, hempty ((enabled_iff howns').1 henabled)]
    rfl
  have hruns : (run id app steps).InOrder ↔ ∀ past e, past ++ [e] <+: steps →
      (run id app past).Orderly id e ∧ (run id app past).HasRoom id e :=
    Runs.foldl_iff hinOrder hstart (fun _ e h => (h.step e).1) (fun _ e h => (h.step e).2) steps
  rw [InOrder, hnone, List.append_nil, run, typed_foldl, List.nil_append] at hruns
  rw [run, hruns]
  refine forall₂_congr fun past e => imp_congr_right fun hpre => ?_
  refine ⟨fun h => h.1, fun h => ⟨h, ?_⟩⟩
  cases e with
  | text text => exact .inr (.inr (.inr (hroom past _ hpre)))
  | _ => trivial

/-- A window of a client with one text input, which is disabled. -/
def typingApp : TextApp :=
  { windows := Table.empty.insert 1 ⟨7⟩, activeWindowId := none
    textInputs :=
      [{ resource := 3, client := ⟨7⟩, serial := 0, enabled := false, pendingEnabled := none }]
    pendingTextInput := [], log := [] }

/-- A text without keys waits until the text input is enabled. -/
def patientSteps : List TypingStep :=
  [.text "é", .request 3 .enable, .request 3 .commit, .text "né"]

theorem delivered_iff_patient :
    (run 1 typingApp patientSteps).app.delivered = patientSteps.flatMap TypingStep.chars ∧
      ∀ past e, past ++ [e] <+: patientSteps → (run 1 typingApp past).Orderly 1 e := by
  have hroom : ∀ past ∈ patientSteps.inits,
      (run 1 typingApp past).app.pendingTextInput.length < pendingTextInputLimit := by decide
  have hdelivered : (run 1 typingApp patientSteps).app.delivered =
      patientSteps.flatMap TypingStep.chars := by decide
  refine ⟨hdelivered, (delivered_iff ⟨⟨7⟩, rfl, rfl⟩ rfl rfl (fun past e hpre => ?_) ?_).1 hdelivered⟩
  · exact hroom past ((List.mem_inits _ _).2 ((List.prefix_append _ _).trans hpre))
  · exact ⟨_, ⟨⟨7⟩, rfl, rfl⟩, rfl⟩

/-- A text with keys overtakes one that waits. -/
theorem text_overtaken :
    ¬ ∀ (app : TextApp) (id : UInt64) (input : VBoxTextInput) (steps : List TypingStep),
      app.Owns id input → app.pendingTextInput = [] → app.log = [] →
      (∀ past e, past ++ [e] <+: steps →
        (run id app past).app.pendingTextInput.length < pendingTextInputLimit) →
      (run id app steps).Enabled id →
      (run id app steps).app.delivered = steps.flatMap TypingStep.chars := by
  intro h
  let steps : List TypingStep := [.text "é", .text "a", .request 3 .enable, .request 3 .commit]
  have hroom : ∀ past ∈ steps.inits,
      (run 1 typingApp past).app.pendingTextInput.length < pendingTextInputLimit := by decide
  have hdelivered := h typingApp 1 _ steps ⟨⟨7⟩, rfl, rfl⟩ rfl rfl
    (fun past e hpre => hroom past ((List.mem_inits _ _).2 ((List.prefix_append _ _).trans hpre)))
    ⟨_, ⟨⟨7⟩, rfl, rfl⟩, rfl⟩
  revert hdelivered
  decide

end Typing

end VBox
