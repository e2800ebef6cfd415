import Mathlib.Data.List.Nodup
import VBox.Clipboard.Bridge
import VBox.Lib.Register

/-!
# Clipboard.Serials

Clipboard frames carry serials, so that a frame that was overtaken can be told from a new one. On
the way to the guest `apply_host_clipboard` drops such frames, and the clipboard is a register that
keeps the latest text (`ClipboardApp.foldl_eq`). On the way to the host nothing looks at the serial.

* `ClipboardApp.applyHostClipboard_order`: frames from the host may arrive in any order.
* `GuestCopies.pasteboard_isLatest_iff`: each selection of a guest is read by a thread of its own,
  and the pasteboard ends up with the text of the highest serial exactly when its frame is the last
  one to arrive.
-/

namespace VBox

open Register

/-! ## From the host -/

/-- The frames that `apply_host_clipboard` looks at. -/
def Clipboard.Eligible (payload : Clipboard) : Prop :=
  payload.origin = .host ∧ payload.text.utf8ByteSize ≤ maxClipboardTextBytes

instance (payload : Clipboard) : Decidable payload.Eligible := inferInstanceAs (Decidable (_ ∧ _))

def Clipboard.key (payload : Clipboard) : Nat := payload.serial.toNat

theorem Clipboard.key_le_key {a b : Clipboard} : a.key ≤ b.key ↔ a.serial ≤ b.serial :=
  UInt64.le_iff_toNat_le.symm

namespace ClipboardApp

variable {app : ClipboardApp} {payload : Clipboard}

theorem applyHostClipboard_of_not_eligible (h : ¬ payload.Eligible) :
    app.applyHostClipboard payload = app := by
  rw [applyHostClipboard]
  by_cases horigin : payload.origin = .host
  · have hsize : payload.text.utf8ByteSize > maxClipboardTextBytes :=
      Nat.not_le.1 fun hsize => h ⟨horigin, hsize⟩
    simp [hsize]
  · simp [horigin]

theorem applyHostClipboard_of_eligible (h : payload.Eligible) :
    app.applyHostClipboard payload =
      if payload.serial ≤ app.hostClipboard.lastSerial ∧ app.hostClipboard.text.isSome then app
      else
        { app with
          hostClipboard := { text := some payload.text, lastSerial := payload.serial }
          selection := some (.compositor textMimeTypes) } := by
  rw [applyHostClipboard, if_neg (by simp [h.1]), if_neg (Nat.not_lt.2 h.2)]

/-- Once there is a text, the serial only grows. -/
theorem lastSerial_le_applyHostClipboard (htext : app.hostClipboard.text.isSome) :
    app.hostClipboard.lastSerial ≤ (app.applyHostClipboard payload).hostClipboard.lastSerial ∧
      (app.applyHostClipboard payload).hostClipboard.text.isSome := by
  by_cases h : payload.Eligible
  · rw [applyHostClipboard_of_eligible h]
    split
    · exact ⟨UInt64.le_refl _, htext⟩
    · rename_i hnew
      have hlt : app.hostClipboard.lastSerial < payload.serial :=
        UInt64.not_le.1 fun hle => hnew ⟨hle, htext⟩
      exact ⟨UInt64.le_of_lt hlt, rfl⟩
  · rw [applyHostClipboard_of_not_eligible h]
    exact ⟨UInt64.le_refl _, htext⟩

/-- The app whose clipboard holds what the register holds. -/
def holding (app : ClipboardApp) : Option Clipboard → ClipboardApp
  | none => app
  | some payload =>
    { app with
      hostClipboard := { text := some payload.text, lastSerial := payload.serial }
      selection := some (.compositor textMimeTypes) }

/-- A fresh clipboard takes its first text whatever the serial. -/
theorem applyHostClipboard_holding (hfresh : app.hostClipboard = { text := none, lastSerial := 0 })
    (h : payload.Eligible) (r : Option Clipboard) :
    (app.holding r).applyHostClipboard payload = app.holding (write Clipboard.key r payload) := by
  rw [applyHostClipboard_of_eligible h]
  cases r with
  | none => simp [holding, write, hfresh]
  | some old =>
    by_cases hle : payload.serial ≤ old.serial
    · simp [holding, write, Clipboard.key_le_key, hle]
    · simp [holding, write, Clipboard.key_le_key, hle]

/-- The clipboard refines the register, fed with the eligible frames. -/
theorem foldl_eq (hfresh : app.hostClipboard = { text := none, lastSerial := 0 })
    (frames : List Clipboard) :
    frames.foldl applyHostClipboard app =
      app.holding ((frames.filter (·.Eligible)).foldl (write Clipboard.key) none) := by
  induction frames using List.reverseRecOn with
  | nil => rfl
  | append_singleton frames payload ih =>
    rw [List.foldl_append, ih, List.filter_append, List.foldl_append]
    by_cases h : payload.Eligible
    · simp [h, applyHostClipboard_holding hfresh h]
    · simp [h, applyHostClipboard_of_not_eligible h]

/-- **Frames from the host may arrive in any order.** Those of the wrong origin or size change
nothing, the serial never goes back once there is a text, and when the eligible frames have
different serials, the clipboard holds the one with the highest serial. -/
theorem applyHostClipboard_order (app : ClipboardApp)
    (hfresh : app.hostClipboard = { text := none, lastSerial := 0 }) (frames : List Clipboard) :
    (∀ payload, ¬ payload.Eligible →
      (frames.foldl applyHostClipboard app).applyHostClipboard payload =
        frames.foldl applyHostClipboard app) ∧
    (∀ payload, (frames.foldl applyHostClipboard app).hostClipboard.text.isSome →
      (frames.foldl applyHostClipboard app).hostClipboard.lastSerial ≤
        ((frames.foldl applyHostClipboard app).applyHostClipboard payload).hostClipboard.lastSerial) ∧
    (((frames.filter (·.Eligible)).map (·.serial)).Nodup →
      (∀ payload ∈ frames, payload.Eligible →
        (∀ other ∈ frames, other.Eligible → other.serial ≤ payload.serial) →
        (frames.foldl applyHostClipboard app).hostClipboard =
          { text := some payload.text, lastSerial := payload.serial }) ∧
      ((∀ payload ∈ frames, ¬ payload.Eligible) → frames.foldl applyHostClipboard app = app) ∧
      ∀ frames', frames.Perm frames' →
        frames'.foldl applyHostClipboard app = frames.foldl applyHostClipboard app) := by
  refine ⟨fun payload h => applyHostClipboard_of_not_eligible h,
    fun payload htext => (lastSerial_le_applyHostClipboard htext).1, fun hserial => ?_⟩
  have hkey : ∀ x ∈ frames.filter (·.Eligible), ∀ y ∈ frames.filter (·.Eligible),
      x.key = y.key → x = y := by
    intro x hx y hy hxy
    exact List.inj_on_of_nodup_map hserial hx hy (UInt64.toNat_inj.1 hxy)
  refine ⟨fun payload hmem helig hmax => ?_, fun hnone => ?_, fun frames' hperm => ?_⟩
  · have hlatest : IsLatest Clipboard.key (frames.filter (·.Eligible)) payload := by
      refine ⟨by simp [hmem, helig], fun other hother => ?_⟩
      have hother : other ∈ frames ∧ other.Eligible := by simpa using hother
      exact Clipboard.key_le_key.2 (hmax other hother.1 hother.2)
    rw [foldl_eq hfresh, foldl_eq_some hlatest hkey]
    rfl
  · have hnil : frames.filter (·.Eligible) = [] := by simpa using hnone
    rw [foldl_eq hfresh, hnil]
    rfl
  · rw [foldl_eq hfresh, foldl_eq hfresh, foldl_perm (hperm.filter _) hkey]

/-- Three frames from the host, the last two out of order, and one that came back. -/
theorem applyHostClipboard_order_reversed :
    ([⟨.host, 1, "a"⟩, ⟨.host, 3, "c"⟩, ⟨.guest, 9, "g"⟩, ⟨.host, 2, "b"⟩].foldl applyHostClipboard
      start).hostClipboard = { text := some "c", lastSerial := 3 } := by
  have h := applyHostClipboard_order start rfl
    [⟨.host, 1, "a"⟩, ⟨.host, 3, "c"⟩, ⟨.guest, 9, "g"⟩, ⟨.host, 2, "b"⟩]
  exact (h.2.2 (by decide +kernel)).1 ⟨.host, 3, "c"⟩ (by decide) (by decide +kernel)
    (by decide +kernel)

end ClipboardApp

/-! ## From the guest -/

/-- The guest's side and the host's. `reading` are the reader threads, each with the type it reads
and its serial; `delivered` and `sent` are what went over the wire each way. -/
structure GuestCopies where
  app : ClipboardApp
  reading : List (String × UInt64)
  pasteboard : Pasteboard
  bridge : Bridge
  delivered : List Clipboard
  sent : List Clipboard

inductive GuestCopyEvent where
  | selected (ty : SelectionTarget) (source : Option GuestSource) (pipe : Bool)
      (request : String → Bool)
  /-- A reader reaches the end of its pipe, and what it read. -/
  | drained (reader : Nat) (read : Option (List UInt8))
  | polled

namespace GuestCopies

def start (app : ClipboardApp) (pasteboard : Pasteboard) (bridge : Bridge) : GuestCopies :=
  { app, reading := [], pasteboard, bridge, delivered := [], sent := [] }

/-- A frame at the installer. -/
def deliver (s : GuestCopies) (payload : Clipboard) : GuestCopies :=
  let (bridge, pasteboard) := s.bridge.install s.pasteboard payload
  { s with bridge, pasteboard, delivered := s.delivered ++ [payload] }

def step (s : GuestCopies) : GuestCopyEvent → GuestCopies
  | .selected ty source pipe request =>
    let (app, job) := s.app.newSelection ty source pipe request
    { s with app, reading := s.reading ++ job.toList }
  | .drained reader read =>
    match s.reading[reader]? with
    | none => s
    | some (_, serial) =>
      let s := { s with reading := s.reading.eraseIdx reader }
      match readGuestTextSelection read serial with
      | none => s
      | some payload => s.deliver payload
  | .polled =>
    let (bridge, payload) := s.bridge.poll s.pasteboard
    { s with bridge, sent := s.sent ++ payload.toList }

def run (s : GuestCopies) (events : List GuestCopyEvent) : GuestCopies := events.foldl step s

/-- No text from the guest is one that the host has sent. -/
def Fresh (b : Bridge) (s : GuestCopies) : Prop :=
  ∀ frame ∈ s.delivered, b.lastSentToGuest ≠ some frame.text ∧
    ∀ payload ∈ s.sent, payload.text ≠ frame.text

/-- What the run keeps: the echo cache has a text the host has sent, and as long as the texts are
fresh the pasteboard has the text that was delivered last. -/
structure Follows (b : Bridge) (s : GuestCopies) : Prop where
  sent : ∀ text, s.bridge.lastSentToGuest = some text →
    b.lastSentToGuest = some text ∨ ∃ payload ∈ s.sent, payload.text = text
  last : Fresh b s → ∀ frame, s.delivered.getLast? = some frame →
    s.pasteboard.text = some frame.text

theorem utf8ByteSize_of_fromUtf8 {bytes : List UInt8} {text : String}
    (h : fromUtf8 bytes = some text) : text.utf8ByteSize = bytes.length := by
  rw [fromUtf8, String.fromUTF8?] at h
  split at h
  · cases h
    rfl
  · cases h

/-- A reader posts what a guest may send. -/
theorem readGuestTextSelection_spec {read : Option (List UInt8)} {serial : UInt64}
    {payload : Clipboard} (h : readGuestTextSelection read serial = some payload) :
    payload.origin = .guest ∧ payload.text.utf8ByteSize ≤ maxClipboardTextBytes := by
  cases read with
  | none => cases h
  | some bytes =>
    simp only [readGuestTextSelection] at h
    split at h
    · cases h
    · rename_i hlen
      obtain ⟨text, htext, rfl⟩ := Option.map_eq_some_iff.1 h
      refine ⟨rfl, ?_⟩
      rw [utf8ByteSize_of_fromUtf8 htext]
      omega

variable {b : Bridge} {s : GuestCopies}

theorem Fresh.mono {s' : GuestCopies} (h : Fresh b s')
    (hdelivered : ∀ frame ∈ s.delivered, frame ∈ s'.delivered)
    (hsent : ∀ payload ∈ s.sent, payload ∈ s'.sent) : Fresh b s := fun frame hframe =>
  ⟨(h frame (hdelivered frame hframe)).1,
    fun payload hpayload => (h frame (hdelivered frame hframe)).2 payload (hsent payload hpayload)⟩

theorem Follows.deliver (hs : Follows b s) {payload : Clipboard} (horigin : payload.origin = .guest)
    (hsize : payload.text.utf8ByteSize ≤ maxClipboardTextBytes) :
    Follows b (s.deliver payload) := by
  have hbridge : (s.deliver payload).bridge.lastSentToGuest = s.bridge.lastSentToGuest := by
    simp only [GuestCopies.deliver, Bridge.install_eq]
    split <;> rfl
  refine ⟨fun text htext => hs.sent text (hbridge ▸ htext), fun hfresh frame hlast => ?_⟩
  obtain rfl : payload = frame := by simpa [GuestCopies.deliver] using hlast
  obtain ⟨hstart, hsent⟩ := hfresh payload (by simp [GuestCopies.deliver])
  -- the host never sent this text, so the echo cache does not have it
  have hnew : s.bridge.lastSentToGuest ≠ some payload.text := by
    intro hecho
    obtain h | ⟨other, hother, h⟩ := hs.sent _ hecho
    · exact hstart h
    · exact hsent other hother h
  have hinstall : shouldInstallFromGuest payload s.bridge.lastSentToGuest := by
    simp [shouldInstallFromGuest, horigin, Nat.not_lt.2 hsize, hnew]
  simp [GuestCopies.deliver, Bridge.install_eq, hinstall, Pasteboard.setText]

theorem Follows.polled (hs : Follows b s) : Follows b (s.step .polled) := by
  have hlast : Fresh b (s.step .polled) → ∀ frame, s.delivered.getLast? = some frame →
      s.pasteboard.text = some frame.text := fun hfresh =>
    hs.last (hfresh.mono (fun _ h => h) fun _ h => List.mem_append_left _ h)
  refine ⟨fun text htext => ?_, hlast⟩
  by_cases hidle : s.bridge.lastChangeCount = some s.pasteboard.changeCount ∨
      s.pasteboard.text = none
  · simp only [GuestCopies.step, Bridge.poll_idle hidle] at htext ⊢
    simpa using hs.sent text htext
  · obtain ⟨hcount, hsome⟩ := not_or.1 hidle
    obtain ⟨board, hboard⟩ := Option.ne_none_iff_exists'.1 hsome
    simp only [GuestCopies.step, Bridge.poll_eq hboard hcount] at htext ⊢
    split at htext
    · rename_i hrelay
      cases htext
      simp [hrelay]
    · rename_i hrelay
      simpa [hrelay] using hs.sent text htext

theorem Follows.step (hs : Follows b s) (e : GuestCopyEvent) : Follows b (s.step e) := by
  cases e with
  | selected ty source pipe request => exact ⟨hs.sent, hs.last⟩
  | drained reader read =>
    simp only [GuestCopies.step]
    split
    · exact hs
    · rename_i mime serial hreader
      have hs' : Follows b { s with reading := s.reading.eraseIdx reader } := ⟨hs.sent, hs.last⟩
      cases hread : readGuestTextSelection read serial with
      | none => exact hs'
      | some payload =>
        obtain ⟨horigin, hsize⟩ := readGuestTextSelection_spec hread
        exact hs'.deliver horigin hsize
  | polled => exact hs.polled

theorem Follows.run (hs : Follows b s) (events : List GuestCopyEvent) : Follows b (s.run events) :=
  List.foldlRecOn events _ hs fun _ h e _ => h.step e

theorem follows_start (app : ClipboardApp) (pb : Pasteboard) (b : Bridge) :
    Follows b (start app pb b) :=
  ⟨fun _ h => .inl h, fun _ _ h => nomatch h⟩

/-- **The pasteboard has the text of the highest serial exactly when its frame was the last one to
arrive.** The texts differ from each other and from everything the host has sent. -/
theorem pasteboard_isLatest_iff (app : ClipboardApp) (pb : Pasteboard) (b : Bridge)
    (events : List GuestCopyEvent) (last : Clipboard)
    (hlast : ((start app pb b).run events).delivered.getLast? = some last)
    (hdistinct : (((start app pb b).run events).delivered.map (·.text)).Nodup)
    (hfresh : Fresh b ((start app pb b).run events)) :
    (∃ frame, IsLatest Clipboard.key ((start app pb b).run events).delivered frame ∧
      ((start app pb b).run events).pasteboard.text = some frame.text) ↔
    ∀ frame ∈ ((start app pb b).run events).delivered, frame.serial ≤ last.serial := by
  have hmem : last ∈ ((start app pb b).run events).delivered := List.mem_of_getLast? hlast
  have hboard := ((follows_start app pb b).run events).last hfresh last hlast
  constructor
  · rintro ⟨frame, hlatest, htext⟩
    have hsame : frame = last := by
      refine List.inj_on_of_nodup_map hdistinct hlatest.mem hmem ?_
      rw [hboard] at htext
      exact (Option.some.inj htext).symm
    intro other hother
    exact Clipboard.key_le_key.1 (hsame ▸ hlatest.le other hother)
  · intro hmax
    exact ⟨last, ⟨hmem, fun other hother => Clipboard.key_le_key.2 (hmax other hother)⟩, hboard⟩

/-- Two selections in a row, before anything was copied on the host, and their readers. -/
def twoCopies (readers : List GuestCopyEvent) : GuestCopies :=
  (start .start { changeCount := 0, text := none } .start).run
    (.selected .clipboard (some ⟨["text/plain"], fun _ => utf8 "old"⟩) true (fun _ => true) ::
      .selected .clipboard (some ⟨["text/plain"], fun _ => utf8 "new"⟩) true (fun _ => true) ::
      readers)

theorem pasteboard_isLatest_in_order :
    ∃ frame, IsLatest Clipboard.key
        (twoCopies [.drained 0 (some (utf8 "old")), .drained 0 (some (utf8 "new"))]).delivered frame ∧
      (twoCopies [.drained 0 (some (utf8 "old")),
        .drained 0 (some (utf8 "new"))]).pasteboard.text = some frame.text := by
  have hsent : (twoCopies [.drained 0 (some (utf8 "old")), .drained 0 (some (utf8 "new"))]).sent =
      [] := by decide +kernel
  refine (pasteboard_isLatest_iff _ _ .start _ ⟨.guest, 2, "new"⟩ (by decide +kernel) (by decide +kernel)
    fun frame _ => ⟨(nomatch ·), fun payload h => ?_⟩).2 (by decide +kernel)
  exact absurd (hsent ▸ h) List.not_mem_nil

/-- The reader of the second selection is the first one done. -/
def overtaken : GuestCopies :=
  twoCopies [.drained 1 (some (utf8 "new")), .drained 0 (some (utf8 "old"))]

/-- The pasteboard is left with the older text, although the newer one has been delivered. -/
theorem overtaken_not_latest :
    overtaken.reading = [] ∧
      overtaken.delivered = [⟨.guest, 2, "new"⟩, ⟨.guest, 1, "old"⟩] ∧ overtaken.sent = [] ∧
      overtaken.pasteboard.text = some "old" ∧
      ¬ ∃ frame, IsLatest Clipboard.key overtaken.delivered frame ∧
        overtaken.pasteboard.text = some frame.text := by
  have hdelivered : overtaken.delivered = [⟨.guest, 2, "new"⟩, ⟨.guest, 1, "old"⟩] := by
    decide +kernel
  have htext : overtaken.pasteboard.text = some "old" := by decide +kernel
  refine ⟨by decide +kernel, hdelivered, by decide +kernel, htext, ?_⟩
  rintro ⟨frame, hlatest, hframe⟩
  rw [hdelivered] at hlatest
  rw [htext] at hframe
  have hle := hlatest.le ⟨.guest, 2, "new"⟩ List.mem_cons_self
  obtain rfl | rfl : frame = ⟨.guest, 2, "new"⟩ ∨ frame = ⟨.guest, 1, "old"⟩ := by
    simpa using hlatest.mem
  · exact absurd hframe (by decide)
  · exact absurd hle (by decide)

end GuestCopies
end VBox
