import VBox.Clipboard.Bridge

/-!
# Clipboard.Convergence

The host, the bridge and the guest together: texts are copied on either side, and each copy goes all
the way through the bridge before the next one.

Two caches decide whether a copy goes through. They keep the last text installed on the pasteboard
and the last text sent to the guest, and nothing forgets them, so a text that is copied again later
on may be taken for its own echo.

* `Consistent.step`: the serials of the two sides agree, and the poller is up to date.
* `step_settled`: after a copy, polling again does nothing.
* `converged_iff`: after a copy both sides have its text, if and only if the caches let it through
  or the other side had the text already.
-/

namespace VBox

structure ClipboardSync where
  pasteboard : Pasteboard
  bridge : Bridge
  app : ClipboardApp

inductive Copy where
  | host (text : ClipboardText)
  | guest (selection : GuestSelection)

def Copy.text : Copy → String
  | .host text => text
  | .guest selection => selection.text

inductive ClipboardEvent where
  | copied (copy : Copy)
  | polled

namespace ClipboardSync

def start (pb : Pasteboard) : ClipboardSync :=
  { pasteboard := pb, bridge := .start, app := .start }

/-- A round of the poller, and what it sends. -/
def tick (s : ClipboardSync) : ClipboardSync :=
  match s.bridge.poll s.pasteboard with
  | (bridge, none) => { s with bridge }
  | (bridge, some payload) => { s with bridge, app := s.app.applyHostClipboard payload }

/-- A copy, and for one in the guest the frame it sends to the installer. -/
def copy (s : ClipboardSync) : Copy → ClipboardSync
  | .host text => { s with pasteboard := s.pasteboard.setText text }
  | .guest selection =>
    match s.app.setSelection selection.source with
    | (app, none) => { s with app }
    | (app, some payload) =>
      let (bridge, pasteboard) := s.bridge.install s.pasteboard payload
      { pasteboard, bridge, app }

def step (s : ClipboardSync) : ClipboardEvent → ClipboardSync
  | .copied copy => (s.copy copy).tick
  | .polled => s.tick

def run (s : ClipboardSync) (events : List ClipboardEvent) : ClipboardSync := events.foldl step s

/-- Both sides have the text. -/
def Converged (s : ClipboardSync) (text : String) : Prop :=
  s.pasteboard.text = some text ∧ s.app.Pastes text

instance (s : ClipboardSync) (text : String) : Decidable (s.Converged text) :=
  inferInstanceAs (Decidable (_ ∧ _))

/-- The caches let the copy through, or the other side has its text already. -/
def Passes (s : ClipboardSync) : Copy → Prop
  | .host text =>
    (s.bridge.lastInstalledFromGuest ≠ some text.1 ∧ s.bridge.serial.toNat + 1 < 2 ^ 64) ∨
      s.app.Pastes text
  | .guest selection =>
    s.bridge.lastSentToGuest ≠ some selection.text.1 ∨ s.pasteboard.text = some selection.text.1

instance (s : ClipboardSync) : (copy : Copy) → Decidable (s.Passes copy)
  | .host _ => inferInstanceAs (Decidable (_ ∨ _))
  | .guest _ => inferInstanceAs (Decidable (_ ∨ _))

/-! ## The state between events -/

/-- There is nothing for the poller to read. -/
def Polled (s : ClipboardSync) : Prop :=
  s.bridge.lastChangeCount = some s.pasteboard.changeCount ∨ s.pasteboard.text = none

structure Consistent (s : ClipboardSync) : Prop where
  serial_eq : s.app.hostClipboard.lastSerial = s.bridge.serial
  text_isSome : s.bridge.serial ≠ 0 → s.app.hostClipboard.text.isSome
  seen : ∀ count, s.bridge.lastChangeCount = some count → count ≤ s.pasteboard.changeCount

variable {s : ClipboardSync}

theorem Polled.tick_eq (h : s.Polled) : s.tick = s := by
  rw [tick, Bridge.poll_idle h]

theorem lt_saturatingAdd {serial : UInt64} (h : serial.toNat + 1 < 2 ^ 64) :
    serial < saturatingAdd serial 1 := by
  have hone : (1 : UInt64).toNat = 1 := rfl
  rw [saturatingAdd, hone, if_pos h, UInt64.lt_iff_toNat_lt, UInt64.toNat_add, hone]
  omega

theorem saturatingAdd_eq_self {serial : UInt64} (h : ¬ serial.toNat + 1 < 2 ^ 64) :
    saturatingAdd serial 1 = serial := by
  have hone : (1 : UInt64).toNat = 1 := rfl
  have hlt := serial.toNat_lt
  rw [saturatingAdd, hone, if_neg h]
  apply UInt64.toNat_inj.1
  show 2 ^ 64 - 1 = serial.toNat
  omega

theorem shouldRelayToGuest_iff (text : ClipboardText) (lastInstalled : Option String) :
    shouldRelayToGuest text lastInstalled ↔ lastInstalled ≠ some text.1 := by
  simp [shouldRelayToGuest, Nat.not_lt.2 text.2]

/-- A round of the poller over a new text. -/
structure Ticked (s s' : ClipboardSync) (text : String) : Prop where
  pasteboard_eq : s'.pasteboard = s.pasteboard
  polled : s'.Polled
  consistent : s'.Consistent
  relayed : shouldRelayToGuest text s.bridge.lastInstalledFromGuest →
    s.bridge.serial.toNat + 1 < 2 ^ 64 → s'.app.Pastes text
  dropped : ¬ (shouldRelayToGuest text s.bridge.lastInstalledFromGuest ∧
    s.bridge.serial.toNat + 1 < 2 ^ 64) → s'.app = s.app

theorem Consistent.ticked (hs : s.Consistent) {text : String} (htext : s.pasteboard.text = some text)
    (hcount : s.bridge.lastChangeCount ≠ some s.pasteboard.changeCount) :
    Ticked s s.tick text := by
  have hpoll := Bridge.poll_eq htext hcount
  have hseen : ∀ count, some s.pasteboard.changeCount = some count →
      count ≤ s.pasteboard.changeCount := by
    rintro count ⟨⟩
    exact Int.le_refl _
  by_cases hrelay : shouldRelayToGuest text s.bridge.lastInstalledFromGuest
  · rw [if_pos hrelay] at hpoll
    have hsize : text.utf8ByteSize ≤ maxClipboardTextBytes := by
      by_contra hsize
      simp [shouldRelayToGuest, Nat.not_le.1 hsize] at hrelay
    by_cases hserial : s.bridge.serial.toNat + 1 < 2 ^ 64
    · have hnew : s.app.hostClipboard.lastSerial < saturatingAdd s.bridge.serial 1 := by
        rw [hs.serial_eq]
        exact lt_saturatingAdd hserial
      obtain ⟨hpastes, hhost⟩ := s.app.pastes_applyHostClipboard
        { origin := .host, serial := saturatingAdd s.bridge.serial 1, text } rfl hsize hnew
      rw [tick, hpoll]
      refine ⟨rfl, .inl rfl, ⟨?_, fun _ => ?_, hseen⟩, fun _ _ => hpastes,
        fun h => absurd ⟨hrelay, hserial⟩ h⟩
      · simp only [hhost]
      · simp only [hhost, Option.isSome_some]
    · -- the serial is stuck at its maximum, and the compositor drops the frame
      have hstuck := saturatingAdd_eq_self hserial
      have hsome : s.app.hostClipboard.text.isSome := by
        refine hs.text_isSome fun hzero => hserial ?_
        rw [hzero]
        decide
      have happ : s.app.applyHostClipboard { origin := .host, serial := s.bridge.serial, text } =
          s.app :=
        s.app.applyHostClipboard_stale (by rw [hs.serial_eq]; exact UInt64.le_refl _) hsome
      simp only [tick, hpoll, hstuck, happ]
      exact ⟨rfl, .inl rfl, ⟨hs.serial_eq, hs.text_isSome, hseen⟩, fun _ h => absurd h hserial,
        fun _ => rfl⟩
  · rw [if_neg hrelay] at hpoll
    rw [tick, hpoll]
    exact ⟨rfl, .inl rfl, ⟨hs.serial_eq, hs.text_isSome, hseen⟩, fun h => absurd h hrelay,
      fun _ => rfl⟩

/-- Polling leaves nothing to read. -/
theorem Consistent.tick (hs : s.Consistent) : s.tick.Consistent ∧ s.tick.Polled := by
  by_cases hp : s.Polled
  · rw [hp.tick_eq]
    exact ⟨hs, hp⟩
  · simp only [Polled, not_or] at hp
    obtain ⟨text, htext⟩ := Option.ne_none_iff_exists'.1 hp.2
    have := hs.ticked htext hp.1
    exact ⟨this.consistent, this.polled⟩

/-- What a copy in the guest does before the next round of the poller. -/
theorem copy_guest (s : ClipboardSync) (sel : GuestSelection) :
    ∃ app, app.Pastes sel.text ∧ app.hostClipboard = s.app.hostClipboard ∧
      s.copy (.guest sel) =
        if s.bridge.lastSentToGuest = some sel.text.1 then { s with app }
        else
          { pasteboard := s.pasteboard.setText sel.text
            bridge := { s.bridge with lastInstalledFromGuest := some sel.text.1 }
            app } := by
  obtain ⟨app, hset, hpastes, hhost⟩ := s.app.setSelection_spec sel
  refine ⟨app, hpastes, hhost, ?_⟩
  simp only [copy, hset, Bridge.install_eq]
  by_cases hecho : s.bridge.lastSentToGuest = some sel.text.1
  · simp [shouldInstallFromGuest, hecho]
  · simp [shouldInstallFromGuest, hecho, Nat.not_lt.2 sel.text.2]

theorem Consistent.copy (hs : s.Consistent) (c : Copy) : (s.copy c).Consistent := by
  have hseen : ∀ count, s.bridge.lastChangeCount = some count →
      count ≤ s.pasteboard.changeCount + 1 := by
    intro count hcount
    have := hs.seen count hcount
    omega
  cases c with
  | host text => exact ⟨hs.serial_eq, hs.text_isSome, hseen⟩
  | guest sel =>
    obtain ⟨app, -, hhost, hcopy⟩ := s.copy_guest sel
    rw [hcopy]
    split
    · exact ⟨by rw [hhost, hs.serial_eq], by rw [hhost]; exact hs.text_isSome, hs.seen⟩
    · exact ⟨by rw [hhost, hs.serial_eq], by rw [hhost]; exact hs.text_isSome, hseen⟩

theorem Consistent.step (hs : s.Consistent) (e : ClipboardEvent) :
    (s.step e).Consistent ∧ (s.step e).Polled := by
  cases e with
  | copied c => exact (hs.copy c).tick
  | polled => exact hs.tick

/-- **A copy has gone through when the poller has run once**: another round does nothing. -/
theorem step_settled (hs : s.Consistent) (e : ClipboardEvent) : (s.step e).tick = s.step e :=
  (hs.step e).2.tick_eq

/-- Before the first round nothing has been sent. -/
structure Ready (s : ClipboardSync) : Prop where
  consistent : s.Consistent
  polled : s.bridge.lastSentToGuest ≠ none → s.Polled

theorem ready_start (pb : Pasteboard) : (start pb).Ready :=
  ⟨⟨rfl, fun h => absurd rfl h, fun _ h => nomatch h⟩, fun h => absurd rfl h⟩

theorem Ready.run (hs : s.Ready) (events : List ClipboardEvent) : (s.run events).Ready :=
  List.foldlRecOn events _ hs fun _ h e _ =>
    ⟨(h.consistent.step e).1, fun _ => (h.consistent.step e).2⟩

/-! ## One copy -/

theorem converged_copied_host (hs : s.Consistent) (text : ClipboardText) :
    (s.step (.copied (.host text))).Converged text ↔ s.Passes (.host text) := by
  have hcount : s.bridge.lastChangeCount ≠ some (s.pasteboard.changeCount + 1) := by
    intro h
    have := hs.seen _ h
    omega
  have ht : Ticked (s.copy (.host text)) (s.step (.copied (.host text))) text :=
    (hs.copy (.host text)).ticked rfl hcount
  have hboard : (s.step (.copied (.host text))).pasteboard.text = some text.1 := by
    rw [ht.pasteboard_eq]
    rfl
  simp only [Converged, hboard, true_and, Passes, ← shouldRelayToGuest_iff]
  by_cases hrelay : shouldRelayToGuest text s.bridge.lastInstalledFromGuest ∧
      s.bridge.serial.toNat + 1 < 2 ^ 64
  · exact iff_of_true (ht.relayed hrelay.1 hrelay.2) (.inl hrelay)
  · rw [ht.dropped hrelay]
    exact ⟨.inr, fun h => h.resolve_left hrelay⟩

theorem converged_copied_guest (hs : s.Ready) (sel : GuestSelection) :
    (s.step (.copied (.guest sel))).Converged sel.text ↔ s.Passes (.guest sel) := by
  obtain ⟨app, hpastes, -, hcopy⟩ := s.copy_guest sel
  by_cases hecho : s.bridge.lastSentToGuest = some sel.text.1
  · -- the pasteboard stays as it was, and so does the poller
    rw [if_pos hecho] at hcopy
    have hstep : s.step (.copied (.guest sel)) = { s with app } := by
      have hp : Polled { s with app } := hs.polled (by simp [hecho])
      rw [step, hcopy, hp.tick_eq]
    simp [hstep, Converged, hpastes, Passes, hecho]
  · rw [if_neg hecho] at hcopy
    have hcount : s.bridge.lastChangeCount ≠ some (s.pasteboard.changeCount + 1) := by
      intro h
      have := hs.consistent.seen _ h
      omega
    have hcons := hs.consistent.copy (.guest sel)
    rw [hcopy] at hcons
    have ht := hcons.ticked (show _ = some sel.text.1 from rfl) hcount
    have hdrop := ht.dropped (by simp [shouldRelayToGuest])
    rw [← hcopy] at ht hdrop
    refine iff_of_true ⟨?_, ?_⟩ (.inl hecho)
    · show (s.copy (.guest sel)).tick.pasteboard.text = _
      rw [ht.pasteboard_eq, hcopy]
      rfl
    · show (s.copy (.guest sel)).tick.app.Pastes _
      rw [hdrop, hcopy]
      exact hpastes

theorem Ready.converged_iff_passes (hs : s.Ready) (c : Copy) :
    (s.step (.copied c)).Converged c.text ↔ s.Passes c := by
  cases c with
  | host text => exact converged_copied_host hs.consistent text
  | guest sel => exact converged_copied_guest hs sel

/-- A text editor in the guest. -/
def guestCopy (text : String) (h : text.utf8ByteSize ≤ maxClipboardTextBytes) : GuestSelection :=
  { source := { mimeTypes := ["text/html", "text/plain"], data := fun _ => utf8 text }
    text := ⟨text, h⟩
    offers_text := ⟨"text/plain", List.mem_cons_of_mem _ List.mem_cons_self, by decide +kernel⟩
    data_eq := fun _ _ _ => rfl }

end ClipboardSync
end VBox
