import VBox.Proto.Message

/-!
# Clipboard.Bridge

The two halves of the clipboard bridge: the poller and the installer of
`crates/client/src/clipboard.rs` on the host, and the compositor's side of it
(`apply_host_clipboard`, `new_selection`, `send_selection` and `read_guest_text_selection` in
`crates/server/src/wayland_session`).

* `Bridge.poll_eq`, `Bridge.install_eq`: both threads decide as `shouldRelayToGuest` and
  `shouldInstallFromGuest` say.
* `ClipboardApp.pastes_applyHostClipboard`: an accepted host text is what a guest pastes.
* `ClipboardApp.setSelection_spec`: a guest's own text is what a guest pastes, and it is sent to the
  host.
-/

namespace VBox

def maxClipboardTextBytes : Nat := 256 * 1024

def textMimeTypes : List String :=
  ["text/plain;charset=utf-8", "text/plain", "UTF8_STRING", "STRING"]

def isTextMime (mime : String) : Bool :=
  let lower := mime.toLower
  lower == "text/plain" || lower.startsWith "text/plain;" || mime == "UTF8_STRING" ||
    mime == "STRING"

/-- The bytes of a text, as they go through a pipe. -/
def utf8 (text : String) : List UInt8 := text.toByteArray.data.toList

def fromUtf8 (bytes : List UInt8) : Option String := String.fromUTF8? ⟨bytes.toArray⟩

theorem fromUtf8_utf8 (text : String) : fromUtf8 (utf8 text) = some text := by
  have hbytes : (⟨(utf8 text).toArray⟩ : ByteArray) = text.toByteArray := rfl
  rw [fromUtf8, hbytes, String.fromUTF8?, dif_pos text.isValidUTF8]
  rfl

/-! ## The host -/

/-- The general pasteboard. `text` is what `stringForType` returns. -/
structure Pasteboard where
  changeCount : Int
  text : Option String

/-- `clearContents`, which moves the change count on, and `setString`. -/
def Pasteboard.setText (pb : Pasteboard) (text : String) : Pasteboard :=
  { changeCount := pb.changeCount + 1, text := some text }

def readPasteboardTextIfChanged (pb : Pasteboard) (prevCount : Option Int) : Option (Int × String) :=
  if prevCount = some pb.changeCount then none else pb.text.map (pb.changeCount, ·)

/-- `u64::saturating_add`. -/
def saturatingAdd (a b : UInt64) : UInt64 :=
  if a.toNat + b.toNat < 2 ^ 64 then a + b else UInt64.ofNat (2 ^ 64 - 1)

def shouldRelayToGuest (text : String) (lastInstalledFromGuest : Option String) : Bool :=
  if text.utf8ByteSize > maxClipboardTextBytes then false
  else !(lastInstalledFromGuest == some text)

def shouldInstallFromGuest (payload : Clipboard) (lastSentToGuest : Option String) : Bool :=
  if payload.origin ≠ .guest then false
  else if payload.text.utf8ByteSize > maxClipboardTextBytes then false
  else !(lastSentToGuest == some payload.text)

/-- The caches both threads share, and the poller's own variables. -/
structure Bridge where
  lastInstalledFromGuest : Option String
  lastSentToGuest : Option String
  lastChangeCount : Option Int
  serial : UInt64

namespace Bridge

def start : Bridge :=
  { lastInstalledFromGuest := none, lastSentToGuest := none, lastChangeCount := none, serial := 0 }

/-- One round of the poller. -/
def poll (b : Bridge) (pb : Pasteboard) : Bridge × Option Clipboard :=
  match readPasteboardTextIfChanged pb b.lastChangeCount with
  | none => (b, none)
  | some (count, text) =>
    let b := { b with lastChangeCount := some count }
    if text.utf8ByteSize > maxClipboardTextBytes then (b, none)
    else if b.lastInstalledFromGuest = some text then (b, none)
    else
      let serial := saturatingAdd b.serial 1
      ({ b with lastSentToGuest := some text, serial }, some { origin := .host, serial, text })

/-- One frame at the installer. -/
def install (b : Bridge) (pb : Pasteboard) (payload : Clipboard) : Bridge × Pasteboard :=
  if payload.origin ≠ .guest then (b, pb)
  else if payload.text.utf8ByteSize > maxClipboardTextBytes then (b, pb)
  else if b.lastSentToGuest = some payload.text then (b, pb)
  else ({ b with lastInstalledFromGuest := some payload.text }, pb.setText payload.text)

theorem poll_eq {b : Bridge} {pb : Pasteboard} {text : String} (htext : pb.text = some text)
    (hcount : b.lastChangeCount ≠ some pb.changeCount) :
    b.poll pb =
      if shouldRelayToGuest text b.lastInstalledFromGuest then
        ({ b with lastChangeCount := some pb.changeCount, lastSentToGuest := some text,
                  serial := saturatingAdd b.serial 1 },
          some { origin := .host, serial := saturatingAdd b.serial 1, text })
      else ({ b with lastChangeCount := some pb.changeCount }, none) := by
  have hread : readPasteboardTextIfChanged pb b.lastChangeCount = some (pb.changeCount, text) := by
    rw [readPasteboardTextIfChanged, if_neg hcount, htext]
    rfl
  simp only [poll, hread, shouldRelayToGuest]
  by_cases hsize : text.utf8ByteSize > maxClipboardTextBytes
  · simp [hsize]
  · by_cases hecho : b.lastInstalledFromGuest = some text
    · simp [hsize, hecho]
    · simp [hsize, hecho]

theorem poll_idle {b : Bridge} {pb : Pasteboard}
    (h : b.lastChangeCount = some pb.changeCount ∨ pb.text = none) : b.poll pb = (b, none) := by
  have hread : readPasteboardTextIfChanged pb b.lastChangeCount = none := by
    rw [readPasteboardTextIfChanged]
    obtain h | h := h
    · rw [if_pos h]
    · split
      · rfl
      · rw [h]
        rfl
  rw [poll, hread]

theorem install_eq (b : Bridge) (pb : Pasteboard) (payload : Clipboard) :
    b.install pb payload =
      if shouldInstallFromGuest payload b.lastSentToGuest then
        ({ b with lastInstalledFromGuest := some payload.text }, pb.setText payload.text)
      else (b, pb) := by
  simp only [install, shouldInstallFromGuest]
  by_cases horigin : payload.origin ≠ .guest
  · simp [horigin]
  · by_cases hsize : payload.text.utf8ByteSize > maxClipboardTextBytes
    · simp [hsize]
    · by_cases hecho : b.lastSentToGuest = some payload.text
      · simp [horigin, hsize, hecho]
      · simp [horigin, hsize, hecho]

end Bridge

/-! ## The compositor -/

inductive SelectionTarget where
  | clipboard
  | primary
  deriving DecidableEq

/-- A data source of a guest application: the types it offers, and what it writes into a pipe when
it is asked for one of them. -/
structure GuestSource where
  mimeTypes : List String
  data : String → List UInt8

/-- The selection on the seat, as smithay keeps it. -/
inductive Selection where
  | client (source : GuestSource)
  | compositor (mimeTypes : List String)

def Selection.mimeTypes : Selection → List String
  | .client source => source.mimeTypes
  | .compositor mimeTypes => mimeTypes

structure HostClipboard where
  text : Option String
  lastSerial : UInt64

structure ClipboardApp where
  hostClipboard : HostClipboard
  guestClipboardSerial : UInt64
  selection : Option Selection

/-- The thread of `read_guest_text_selection`: `read` is what the pipe gives until its other end is
closed, or nothing when reading fails. -/
def readGuestTextSelection (read : Option (List UInt8)) (serial : UInt64) : Option Clipboard :=
  match read with
  | none => none
  | some bytes =>
    let buf := bytes.take (maxClipboardTextBytes + 1)
    if buf.length > maxClipboardTextBytes then none
    else (fromUtf8 buf).map fun text => { origin := .guest, serial, text }

namespace ClipboardApp

def start : ClipboardApp :=
  { hostClipboard := { text := none, lastSerial := 0 }, guestClipboardSerial := 0, selection := none }

def applyHostClipboard (app : ClipboardApp) (payload : Clipboard) : ClipboardApp :=
  if payload.origin ≠ .host then app
  else if payload.text.utf8ByteSize > maxClipboardTextBytes then app
  else if payload.serial ≤ app.hostClipboard.lastSerial ∧ app.hostClipboard.text.isSome then app
  else
    { app with
      hostClipboard := { text := some payload.text, lastSerial := payload.serial }
      selection := some (.compositor textMimeTypes) }

/-- The callback for a new selection: which type to read, and under which serial. `pipe` says
whether the pipe could be made, `request` whether smithay took the request for a type. -/
def newSelection (app : ClipboardApp) (ty : SelectionTarget) (source : Option GuestSource)
    (pipe : Bool) (request : String → Bool) : ClipboardApp × Option (String × UInt64) :=
  if ty ≠ .clipboard then (app, none)
  else
    match source with
    -- a cleared selection stays in the guest
    | none => (app, none)
    | some source =>
      match source.mimeTypes.find? isTextMime with
      | none => (app, none)
      | some mime =>
        if !pipe then (app, none)
        else if !request mime then (app, none)
        else
          let serial := saturatingAdd app.guestClipboardSerial 1
          ({ app with guestClipboardSerial := serial }, some (mime, serial))

/-- What is written to a guest that pastes the compositor's selection. -/
def sendSelection (app : ClipboardApp) (ty : SelectionTarget) (mime : String) : Option (List UInt8) :=
  if ty ≠ .clipboard then none
  else if !isTextMime mime then none
  else app.hostClipboard.text.map utf8

/-- What a guest gets that pastes `mime`. -/
def paste (app : ClipboardApp) (mime : String) : Option (List UInt8) :=
  match app.selection with
  | none => none
  | some (.client source) => if mime ∈ source.mimeTypes then some (source.data mime) else none
  | some (.compositor mimeTypes) =>
    if mime ∈ mimeTypes then app.sendSelection .clipboard mime else none

def offered (app : ClipboardApp) : List String :=
  match app.selection with
  | none => []
  | some selection => selection.mimeTypes

/-- A guest is offered text, and whichever text type it asks for, it gets `text`. -/
def Pastes (app : ClipboardApp) (text : String) : Prop :=
  (∃ mime ∈ app.offered, isTextMime mime) ∧
    ∀ mime ∈ app.offered, isTextMime mime → app.paste mime = some (utf8 text)

instance (app : ClipboardApp) (text : String) : Decidable (app.Pastes text) :=
  inferInstanceAs (Decidable (_ ∧ _))

/-- A guest application sets the selection, and its text, if it has one, is read for the host. -/
def setSelection (app : ClipboardApp) (source : GuestSource) : ClipboardApp × Option Clipboard :=
  let (app, job) := newSelection { app with selection := some (.client source) } .clipboard
    (some source) true fun _ => true
  (app, job.bind fun (mime, serial) => readGuestTextSelection (some (source.data mime)) serial)

theorem isTextMime_of_mem : ∀ mime ∈ textMimeTypes, isTextMime mime := by decide +kernel

theorem pastes_applyHostClipboard (app : ClipboardApp) (payload : Clipboard)
    (horigin : payload.origin = .host) (hsize : payload.text.utf8ByteSize ≤ maxClipboardTextBytes)
    (hserial : app.hostClipboard.lastSerial < payload.serial) :
    (app.applyHostClipboard payload).Pastes payload.text ∧
      (app.applyHostClipboard payload).hostClipboard =
        { text := some payload.text, lastSerial := payload.serial } := by
  have hnew : ¬ (payload.serial ≤ app.hostClipboard.lastSerial ∧ app.hostClipboard.text.isSome) :=
    fun h => absurd hserial (UInt64.not_lt.2 h.1)
  have happ : app.applyHostClipboard payload =
      { app with
        hostClipboard := { text := some payload.text, lastSerial := payload.serial }
        selection := some (.compositor textMimeTypes) } := by
    rw [applyHostClipboard, if_neg (by simp [horigin]), if_neg (by omega), if_neg hnew]
  have hoffered : "STRING" ∈ textMimeTypes := by decide
  rw [happ]
  refine ⟨⟨⟨"STRING", hoffered, isTextMime_of_mem _ hoffered⟩, fun mime hmem hmime => ?_⟩, rfl⟩
  have hmem : mime ∈ textMimeTypes := hmem
  simp [paste, sendSelection, hmem, hmime]

theorem applyHostClipboard_stale (app : ClipboardApp) {payload : Clipboard}
    (hserial : payload.serial ≤ app.hostClipboard.lastSerial)
    (htext : app.hostClipboard.text.isSome) : app.applyHostClipboard payload = app := by
  rw [applyHostClipboard, if_pos (show _ ∧ _ from ⟨hserial, htext⟩)]
  simp

end ClipboardApp

/-! ## Texts -/

/-- A text that is short enough for the bridge. -/
abbrev ClipboardText := { text : String // text.utf8ByteSize ≤ maxClipboardTextBytes }

/-- A selection of a text in the guest: some text type is offered, and each one of them gives the
text. -/
structure GuestSelection where
  source : GuestSource
  text : ClipboardText
  offers_text : ∃ mime ∈ source.mimeTypes, isTextMime mime
  data_eq : ∀ mime ∈ source.mimeTypes, isTextMime mime → source.data mime = utf8 text

/-- The selection of a text reaches the guests as it is, and the host under the next serial. -/
theorem ClipboardApp.setSelection_spec (app : ClipboardApp) (sel : GuestSelection) :
    ∃ app', app.setSelection sel.source =
        (app', some { origin := .guest, serial := saturatingAdd app.guestClipboardSerial 1,
                      text := sel.text }) ∧
      app'.Pastes sel.text ∧ app'.hostClipboard = app.hostClipboard := by
  obtain ⟨mime, hmime⟩ : ∃ mime, sel.source.mimeTypes.find? isTextMime = some mime := by
    rw [← Option.isSome_iff_exists, List.find?_isSome]
    exact sel.offers_text
  have htext : isTextMime mime := List.find?_some hmime
  have hdata := sel.data_eq mime (List.mem_of_find?_eq_some hmime) htext
  have hlen : (utf8 sel.text).length ≤ maxClipboardTextBytes := sel.text.2
  have hread : readGuestTextSelection (some (utf8 sel.text))
      (saturatingAdd app.guestClipboardSerial 1) =
        some { origin := .guest, serial := saturatingAdd app.guestClipboardSerial 1,
               text := sel.text } := by
    simp only [readGuestTextSelection]
    rw [List.take_of_length_le (by omega), if_neg (by omega), fromUtf8_utf8]
    rfl
  refine ⟨{ app with
    selection := some (.client sel.source)
    guestClipboardSerial := saturatingAdd app.guestClipboardSerial 1 }, ?_, ⟨?_, ?_⟩, rfl⟩
  · simp [setSelection, newSelection, hmime, hdata, hread]
  · exact sel.offers_text
  · intro m hm hmtext
    have hm : m ∈ sel.source.mimeTypes := hm
    simp [paste, hm, sel.data_eq m hm hmtext]

end VBox
