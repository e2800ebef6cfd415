import Mathlib.Data.Finset.Card
import Mathlib.Data.Finset.Image
import VBox.Viewer.Keyboard

/-!
# Viewer.HeldKeys

Runs of key events on the windows of the viewer, with which key of the host stands behind which
keycode of the guest.

* `Covered`: every key that the guest holds has a key of the host that was translated to it, and a
  modifier is counted at most once for each of them.
* `forwarded_press_released`: a key that is translated at its release as it was at its press leaves
  nothing pressed.
-/

namespace VBox

open KeyLedger

/-- The keys of the host that are down, each with a keycode that a press of it was translated to. -/
abbrev KeyMap := Finset (PhysicalKey × UInt32)

namespace KeyMap

def holders (mapped : KeyMap) (keycode : UInt32) : KeyMap := mapped.filter fun e => e.2 = keycode

/-- Without a key that went up. -/
def without (mapped : KeyMap) (physical : PhysicalKey) : KeyMap := mapped.filter fun e => e.1 ≠ physical

theorem holders_insert_self (mapped : KeyMap) (physical : PhysicalKey) (keycode : UInt32) :
    holders (insert (physical, keycode) mapped) keycode =
      insert (physical, keycode) (holders mapped keycode) := by
  simp [holders, Finset.filter_insert]

theorem holders_insert_of_ne (mapped : KeyMap) (physical : PhysicalKey) {keycode k : UInt32}
    (h : k ≠ keycode) : holders (insert (physical, keycode) mapped) k = holders mapped k := by
  simp [holders, Finset.filter_insert, Ne.symm h]

theorem holders_without (mapped : KeyMap) (physical : PhysicalKey) (keycode : UInt32) :
    holders (without mapped physical) keycode =
      (holders mapped keycode).erase (physical, keycode) := by
  ext ⟨p, k⟩
  simp only [holders, without, Finset.mem_filter, Finset.mem_erase, ne_eq, Prod.mk.injEq]
  constructor
  · rintro ⟨⟨hmem, hp⟩, hk⟩
    exact ⟨fun h => hp h.1, hmem, hk⟩
  · rintro ⟨hne, hmem, hk⟩
    exact ⟨⟨hmem, fun hp => hne ⟨hp, hk⟩⟩, hk⟩

theorem mem_holders {mapped : KeyMap} {physical : PhysicalKey} {keycode : UInt32} :
    (physical, keycode) ∈ holders mapped keycode ↔ (physical, keycode) ∈ mapped := by
  simp [holders]

theorem mem_without {mapped : KeyMap} {p physical : PhysicalKey} {keycode : UInt32} :
    (p, keycode) ∈ without mapped physical ↔ (p, keycode) ∈ mapped ∧ p ≠ physical := by
  simp [without]

end KeyMap

/-! ## The invariant -/

structure Covered (mapped : KeyMap) (l : KeyLedger) : Prop where
  modifiers : l.ModifiersCounted
  holder : ∀ keycode, l.pressedGuestKeys.contains keycode → ∃ physical, (physical, keycode) ∈ mapped
  enough : ∀ keycode ∈ guestModifierKeycodes, ∀ count,
    l.pressedGuestModifierCounts.get? keycode = some count → count ≤ (mapped.holders keycode).card
  noted : ∀ keycode id, lastKey l.sent keycode = some (id, .pressed) →
    l.pressedGuestKeys.contains keycode

namespace Covered

variable {mapped : KeyMap} {l l' : KeyLedger} {id : UInt64} {keycode : UInt32}
  {physical : PhysicalKey}

theorem empty : Covered ∅ KeyLedger.empty := by
  refine ⟨modifiersCounted_empty, fun k hk => ?_, fun k hk count hcount => ?_, fun k i hlast => ?_⟩
  · simp [KeyLedger.empty, Table.contains] at hk
  · simp [KeyLedger.empty] at hcount
  · simp [KeyLedger.empty] at hlast

theorem quietly (h : Covered mapped l) (hquiet : l.Quietly l') : Covered mapped l' := by
  obtain ⟨events, hevents, rfl⟩ := hquiet
  refine ⟨⟨h.modifiers.counted, h.modifiers.positive⟩, h.holder, h.enough, fun k i hlast => ?_⟩
  simp only [log, lastKey_append] at hlast
  obtain hlast | ⟨-, hlast⟩ := Option.or_eq_some_iff.1 hlast
  · exact absurd hlast (hevents k i)
  · exact h.noted k i hlast

/-! ### Presses -/

theorem press (h : Covered mapped l) (hkey : keycode ∉ guestModifierKeycodes) (id : UInt64)
    (physical : PhysicalKey) :
    Covered (insert (physical, keycode) mapped) (l.sendTrackedGuestKey id keycode .pressed) := by
  refine ⟨h.modifiers.sendTrackedGuestKey hkey id .pressed, fun k hk => ?_, fun k hk count hcount => ?_,
    fun k i hlast => ?_⟩
  · by_cases heq : k = keycode
    · subst heq
      exact ⟨physical, Finset.mem_insert_self _ _⟩
    · have hold : l.pressedGuestKeys.contains k := by
        simpa [sendTrackedGuestKey, sendInput, Table.contains, heq] using hk
      obtain ⟨p, hp⟩ := h.holder k hold
      exact ⟨p, Finset.mem_insert_of_mem hp⟩
  · refine (h.enough k hk count hcount).trans (Finset.card_le_card ?_)
    exact Finset.filter_subset_filter _ (Finset.subset_insert _ _)
  · by_cases heq : k = keycode
    · subst heq
      simp [sendTrackedGuestKey, sendInput]
    · have hold : lastKey l.sent k = some (i, .pressed) := by
        simpa [sendTrackedGuestKey, sendInput, Ne.symm heq] using hlast
      simpa [sendTrackedGuestKey, sendInput, Table.contains, heq] using h.noted k i hold

/-- Another key for a modifier. A key that already holds it would be counted twice. -/
theorem pressModifier (h : Covered mapped l) (hkey : keycode ∈ guestModifierKeycodes)
    (honce : (physical, keycode) ∈ mapped → ¬ l.pressedGuestKeys.contains keycode) :
    Covered (insert (physical, keycode) mapped)
      (l.sendTrackedGuestModifierKey id keycode .pressed) := by
  have hmodifiers := h.modifiers.sendTrackedGuestModifierKey hkey id .pressed
  obtain ⟨-, hzero, heq⟩ | ⟨count, -, hcount, heq⟩ | ⟨hstate, -⟩ | ⟨-, hstate, -⟩ | ⟨-, hstate, -⟩ :=
    sendTrackedGuestModifierKey_cases l id keycode .pressed
  · rw [heq] at hmodifiers ⊢
    refine ⟨hmodifiers, fun k hk => ?_, fun k hk n hn => ?_, fun k i hlast => ?_⟩
    · by_cases hne : k = keycode
      · subst hne
        exact ⟨physical, Finset.mem_insert_self _ _⟩
      · obtain ⟨p, hp⟩ := h.holder k (by simpa [hne] using hk)
        exact ⟨p, Finset.mem_insert_of_mem hp⟩
    · by_cases hne : k = keycode
      · subst hne
        obtain rfl : 1 = n := by simpa using hn
        rw [KeyMap.holders_insert_self]
        exact Finset.card_pos.2 (Finset.insert_nonempty _ _)
      · rw [KeyMap.holders_insert_of_ne _ _ hne]
        exact h.enough k hk n (by simpa [hne] using hn)
    · by_cases hne : k = keycode
      · subst hne
        simp
      · have hold := h.noted k i (by simpa [Ne.symm hne] using hlast)
        simpa [hne] using hold
  · have hheld := (h.modifiers.counted keycode hkey).1 (Table.contains_of_get? hcount)
    have hnew : (physical, keycode) ∉ mapped.holders keycode :=
      fun hmem => honce (KeyMap.mem_holders.1 hmem) hheld
    rw [heq] at hmodifiers ⊢
    refine ⟨hmodifiers, fun k hk => ?_, fun k hk n hn => ?_, h.noted⟩
    · obtain ⟨p, hp⟩ := h.holder k hk
      exact ⟨p, Finset.mem_insert_of_mem hp⟩
    · by_cases hne : k = keycode
      · subst hne
        have hle := h.enough k hk (count + 1) hcount
        rw [KeyMap.holders_insert_self, Finset.card_insert_of_notMem hnew]
        have hmin : min (count + 2) usizeMax = n := by simpa using hn
        omega
      · rw [KeyMap.holders_insert_of_ne _ _ hne]
        exact h.enough k hk n (by simpa [hne] using hn)
  all_goals cases hstate

/-! ### Releases -/

/-- What a release does not end is held by another key. -/
theorem without (h : Covered mapped l) {l' : KeyLedger} (hmodifiers : l'.ModifiersCounted)
    (hkeys : ∀ k, l'.pressedGuestKeys.contains k → l.pressedGuestKeys.contains k)
    (hcounts : ∀ k n, l'.pressedGuestModifierCounts.get? k = some n →
      l.pressedGuestModifierCounts.get? k = some n ∨
        l.pressedGuestModifierCounts.get? k = some (n + 1))
    (hother : ∀ k, (physical, k) ∈ mapped → l'.pressedGuestKeys.contains k →
      (k ∉ guestModifierKeycodes ∧ ∃ p, p ≠ physical ∧ (p, k) ∈ mapped) ∨
        k ∈ guestModifierKeycodes ∧ ∃ n, l'.pressedGuestModifierCounts.get? k = some n ∧
          l.pressedGuestModifierCounts.get? k = some (n + 1))
    (hnoted : ∀ k i, lastKey l'.sent k = some (i, .pressed) → l'.pressedGuestKeys.contains k) :
    Covered (mapped.without physical) l' := by
  have hcard : ∀ k, (mapped.holders k).card ≤ ((mapped.without physical).holders k).card + 1 := by
    intro k
    rw [KeyMap.holders_without]
    have := Finset.pred_card_le_card_erase (s := mapped.holders k) (a := (physical, k))
    omega
  have hsame : ∀ k, (physical, k) ∉ mapped → (mapped.without physical).holders k = mapped.holders k := by
    intro k hk
    rw [KeyMap.holders_without, Finset.erase_eq_of_notMem (fun hmem => hk (KeyMap.mem_holders.1 hmem))]
  refine ⟨hmodifiers, fun k hk => ?_, fun k hkey n hn => ?_, hnoted⟩
  · obtain ⟨p, hp⟩ := h.holder k (hkeys k hk)
    by_cases hne : p = physical
    · subst hne
      obtain ⟨-, q, hq, hmem⟩ | ⟨hkey, n, hcount, hn⟩ := hother k hp hk
      · exact ⟨q, KeyMap.mem_without.2 ⟨hmem, hq⟩⟩
      · -- two keys are counted, and only one of them went up
        have htwo := h.enough k hkey (n + 1) hn
        have hpos := hmodifiers.positive k n hcount
        have hone := hcard k
        obtain ⟨⟨q, k'⟩, hq⟩ : ((mapped.without p).holders k).Nonempty :=
          Finset.card_pos.1 (by omega)
        obtain ⟨hmem, rfl⟩ := Finset.mem_filter.1 hq
        exact ⟨q, hmem⟩
    · exact ⟨p, KeyMap.mem_without.2 ⟨hp, hne⟩⟩
  · by_cases hp : (physical, k) ∈ mapped
    · have hheld := (hmodifiers.counted k hkey).1 (Table.contains_of_get? hn)
      obtain ⟨hnot, -⟩ | ⟨-, n', hn', hn''⟩ := hother k hp hheld
      · exact absurd hkey hnot
      · obtain rfl : n = n' := Option.some.inj (hn.symm.trans hn')
        have htwo := h.enough k hkey (n + 1) hn''
        have hone := hcard k
        omega
    · rw [hsame k hp]
      obtain hold | hold := hcounts k n hn
      · exact h.enough k hkey n hold
      · exact (Nat.le_succ n).trans (h.enough k hkey (n + 1) hold)

/-- The key that goes up may leave a keycode pressed only if another key is behind it. -/
def Matches (mapped : KeyMap) (l : KeyLedger) (physical : PhysicalKey) (translated : Option UInt32) :
    Prop :=
  ∀ e ∈ mapped, e.1 = physical → l.pressedGuestKeys.contains e.2 →
    translated = some e.2 ∨
      e.2 ∉ guestModifierKeycodes ∧ ∃ e' ∈ mapped, e'.1 ≠ physical ∧ e'.2 = e.2

instance (mapped : KeyMap) (l : KeyLedger) (physical : PhysicalKey) (translated : Option UInt32) :
    Decidable (Matches mapped l physical translated) :=
  inferInstanceAs (Decidable (∀ e ∈ mapped, _))

theorem Matches.other {translated : Option UInt32} (h : Matches mapped l physical translated)
    (hmem : (physical, keycode) ∈ mapped) (hheld : l.pressedGuestKeys.contains keycode)
    (hnot : translated ≠ some keycode) :
    keycode ∉ guestModifierKeycodes ∧ ∃ p, p ≠ physical ∧ (p, keycode) ∈ mapped := by
  obtain heq | ⟨hkey, ⟨p, k⟩, hmem', hp, hk⟩ := h _ hmem rfl hheld
  · exact absurd heq hnot
  · obtain rfl : k = keycode := hk
    exact ⟨hkey, p, hp, hmem'⟩

theorem release (h : Covered mapped l) {translated : Option UInt32}
    (hkey : ∀ k, translated = some k → k ∉ guestModifierKeycodes)
    (hmatch : Matches mapped l physical translated) (id : UInt64) :
    Covered (mapped.without physical) (KeyboardApp.track l id .released translated) := by
  cases translated with
  | none =>
    refine h.without h.modifiers (fun _ hk => hk) (fun _ _ hn => .inl hn) (fun k hmem hk => ?_) h.noted
    exact .inl (hmatch.other hmem hk (by simp))
  | some keycode =>
    have hmodifiers := h.modifiers.sendTrackedGuestKey (hkey keycode rfl) id .released
    simp only [KeyboardApp.track, sendTrackedGuestKey] at hmodifiers ⊢
    cases hheld : l.pressedGuestKeys.get? keycode with
    | none =>
      refine h.without h.modifiers (fun _ hk => hk) (fun _ _ hn => .inl hn) (fun k hmem hk => ?_)
        h.noted
      have hne : keycode ≠ k := by
        rintro rfl
        simp [Table.contains, hheld] at hk
      exact .inl (hmatch.other hmem hk (by simp [hne]))
    | some pressedId =>
      rw [hheld] at hmodifiers
      refine h.without hmodifiers (fun k hk => ?_) (fun _ _ hn => .inl hn) (fun k hmem hk => ?_)
        (fun k i hlast => ?_)
      · simp only [sendInput, Table.contains_remove, Bool.and_eq_true] at hk
        exact hk.2
      · simp only [sendInput, Table.contains_remove, Bool.and_eq_true, Bool.not_eq_true',
          decide_eq_false_iff_not] at hk
        exact .inl (hmatch.other hmem hk.2 (by simp [Ne.symm hk.1]))
      · by_cases hne : keycode = k
        · simp [sendInput, hne] at hlast
        · have hold := h.noted k i (by simpa [sendInput, hne] using hlast)
          simpa [sendInput, Ne.symm hne] using hold

theorem releaseModifier (h : Covered mapped l) (hkey : keycode ∈ guestModifierKeycodes)
    (hmatch : Matches mapped l physical (some keycode)) (id : UInt64) :
    Covered (mapped.without physical) (l.sendTrackedGuestModifierKey id keycode .released) := by
  have hmodifiers := h.modifiers.sendTrackedGuestModifierKey hkey id .released
  obtain ⟨hstate, -⟩ | ⟨-, hstate, -⟩ | ⟨-, hnone, heq⟩ | ⟨count, -, hcount, heq⟩ |
    ⟨count, -, hcount, -, heq⟩ := sendTrackedGuestModifierKey_cases l id keycode .released
  · cases hstate
  · cases hstate
  · rw [heq]
    refine h.without h.modifiers (fun _ hk => hk) (fun _ _ hn => .inl hn) (fun k hmem hk => ?_) h.noted
    have hne : keycode ≠ k := by
      rintro rfl
      have := (h.modifiers.counted keycode hkey).2 hk
      simp [Table.contains, hnone] at this
    exact .inl (hmatch.other hmem hk (by simp [hne]))
  · rw [heq] at hmodifiers ⊢
    refine h.without hmodifiers (fun _ hk => hk) (fun k n hn => ?_) (fun k hmem hk => ?_) h.noted
    · by_cases hne : k = keycode
      · subst hne
        obtain rfl : count + 1 = n := by simpa using hn
        exact .inr hcount
      · exact .inl (by simpa [hne] using hn)
    · by_cases hne : k = keycode
      · subst hne
        exact .inr ⟨hkey, count + 1, by simp, hcount⟩
      · exact .inl (hmatch.other hmem hk (by simp [Ne.symm hne]))
  · have hheld := (h.modifiers.counted keycode hkey).1 (Table.contains_of_get? hcount)
    obtain ⟨pressedId, hpressed⟩ := (Table.contains_iff _ _).1 hheld
    rw [heq] at hmodifiers ⊢
    simp only [sendTrackedGuestKey, hpressed, sendInput] at hmodifiers ⊢
    refine h.without hmodifiers (fun k hk => ?_) (fun k n hn => ?_) (fun k hmem hk => ?_)
      (fun k i hlast => ?_)
    · simp only [Table.contains_remove, Bool.and_eq_true] at hk
      exact hk.2
    · by_cases hne : k = keycode
      · simp [hne] at hn
      · exact .inl (by simpa [hne] using hn)
    · simp only [Table.contains_remove, Bool.and_eq_true, Bool.not_eq_true',
        decide_eq_false_iff_not] at hk
      exact .inl (hmatch.other hmem hk.2 (by simp [Ne.symm hk.1]))
    · by_cases hne : keycode = k
      · simp [hne] at hlast
      · have hold := h.noted k i (by simpa [hne] using hlast)
        simpa [Ne.symm hne] using hold

end Covered

/-! ## Runs -/

/-- The keycodes that were sent as pressed. -/
def pressesSent (events : List InputEvent) : List UInt32 :=
  events.filterMap fun event =>
    match event with
    | .key _ keycode .pressed => some keycode
    | _ => none

theorem lastKey_of_pressesSent {events : List InputEvent} {keycode : UInt32}
    (h : keycode ∈ pressesSent events) : lastKey events keycode ≠ none := by
  induction events using List.reverseRecOn with
  | nil => cases h
  | append_singleton events event ih =>
    rw [pressesSent, List.filterMap_append, List.mem_append] at h
    rw [lastKey_append]
    obtain h | h := h
    · exact fun hnone => ih h (Option.or_eq_none_iff.1 hnone).2
    · intro hnone
      have hone := (Option.or_eq_none_iff.1 hnone).1
      obtain ⟨e, he, hk⟩ := List.mem_filterMap.1 h
      obtain rfl := List.mem_singleton.1 he
      cases e with
      | key id k state =>
        cases state with
        | pressed =>
          cases hk
          simp [lastKey] at hone
        | released => cases hk
      | _ => cases hk

/-- What happens to the keyboard of the viewer. -/
inductive KeyboardInput (κ : Type) where
  | keyboard (id : UInt64) (event : KeyEvent)
  | modifiersChanged (modifiers : ModifiersState)
  | windowsChanged (windows : Table UInt64 (KeyboardWindow κ))

/-- The app, with the keys that are down: what they were translated to, and what was sent as pressed
when they went down. -/
structure Watched (κ : Type) where
  app : KeyboardApp κ
  mapped : KeyMap
  sentBy : List (PhysicalKey × UInt32)

namespace Watched

variable {κ : Type} (ime : Composer κ)

def start (app : KeyboardApp κ) : Watched κ := { app, mapped := ∅, sentBy := [] }

/-- The keycode that a key event is translated to. -/
def translated (w : Watched κ) (id : UInt64) (event : KeyEvent) : Option UInt32 :=
  (guestModifierKeycode event.physicalKey event.logicalKey).or
    (match event.state with
      | .pressed => w.app.pressKeycode ime id event
      | .released => KeyboardApp.releaseKeycode w.app.modifiers event)

def keyboard (w : Watched κ) (id : UInt64) (event : KeyEvent) : Watched κ :=
  let app := w.app.handleKeyboard ime id event
  match event.state with
  | .pressed =>
    let presses := pressesSent (app.keys.sent.drop w.app.keys.sent.length)
    { app
      mapped := (w.translated ime id event).elim w.mapped fun keycode =>
        insert (event.physicalKey, keycode) w.mapped
      sentBy := w.sentBy ++ presses.map fun keycode => (event.physicalKey, keycode) }
  | .released =>
    { app
      mapped := w.mapped.without event.physicalKey
      sentBy := w.sentBy.filter fun e => e.1 ≠ event.physicalKey }

def step (w : Watched κ) : KeyboardInput κ → Watched κ
  | .keyboard id event => w.keyboard ime id event
  | .modifiersChanged modifiers => { w with app := { w.app with modifiers } }
  | .windowsChanged windows => { w with app := { w.app with windows } }

/-- A key that holds a modifier is not pressed again, and a key goes up as what it went down as. -/
def Meets (w : Watched κ) : KeyboardInput κ → Prop
  | .keyboard id event =>
    match event.state with
    | .pressed => (guestModifierKeycode event.physicalKey event.logicalKey).all fun keycode =>
        !((event.physicalKey, keycode) ∈ w.mapped && w.app.keys.pressedGuestKeys.contains keycode)
    | .released =>
      Covered.Matches w.mapped w.app.keys event.physicalKey (w.translated ime id event)
  | _ => True

/-- Every step of a run meets the condition. -/
def MeetsAll : Watched κ → List (KeyboardInput κ) → Prop
  | _, [] => True
  | w, input :: inputs => w.Meets ime input ∧ MeetsAll (w.step ime input) inputs

/-- After a key went up, what was sent as pressed when it went down was sent as released since, and
the viewer does not hold it, unless another key of the host is down that was translated to it. -/
def Released (w : Watched κ) (id : UInt64) (event : KeyEvent) : Prop :=
  ∀ keycode, (event.physicalKey, keycode) ∈ w.sentBy →
    let w' := w.keyboard ime id event
    (¬ w'.app.keys.pressedGuestKeys.contains keycode ∧
      ∃ i, lastKey w'.app.keys.sent keycode = some (i, .released)) ∨
    ∃ other, other ≠ event.physicalKey ∧ (other, keycode) ∈ w'.mapped

/-! ### What is sent is only added to -/

theorem prefix_track (l : KeyLedger) (id : UInt64) (state : ElementState) (t : Option UInt32) :
    l.sent <+: (KeyboardApp.track l id state t).sent := by
  cases t with
  | none => exact List.prefix_refl _
  | some keycode =>
    cases state with
    | pressed => exact List.prefix_append _ _
    | released =>
      simp only [KeyboardApp.track, sendTrackedGuestKey]
      cases l.pressedGuestKeys.get? keycode with
      | none => exact List.prefix_refl _
      | some pressedId => exact List.prefix_append _ _

theorem prefix_modifierKey (l : KeyLedger) (id : UInt64) (keycode : UInt32) (state : ElementState) :
    l.sent <+: (l.sendTrackedGuestModifierKey id keycode state).sent := by
  simp only [sendTrackedGuestModifierKey]
  split
  · exact prefix_track { l with pressedGuestModifierCounts := (guestModifierRefcountShouldForward
      l.pressedGuestModifierCounts keycode state).2 } id state (some keycode)
  · exact List.prefix_refl _

theorem prefix_of_quietly {l l' : KeyLedger} (h : l.Quietly l') : l.sent <+: l'.sent := by
  obtain ⟨events, -, rfl⟩ := h
  exact List.prefix_append _ _

/-- What a key event does to the ledger of keys. -/
theorem handleKeyboard_cases (w : Watched κ) (id : UInt64) (event : KeyEvent) :
    (∃ keycode ∈ guestModifierKeycodes,
      guestModifierKeycode event.physicalKey event.logicalKey = some keycode ∧
      w.translated ime id event = some keycode ∧
      (w.app.handleKeyboard ime id event).keys =
        w.app.keys.sendTrackedGuestModifierKey id keycode event.state) ∨
    (guestModifierKeycode event.physicalKey event.logicalKey = none ∧
      (∀ keycode, w.translated ime id event = some keycode → keycode ∉ guestModifierKeycodes) ∧
      ∃ l, w.app.keys.Quietly l ∧ (event.state = .released → l = w.app.keys) ∧
        (w.app.handleKeyboard ime id event).keys =
          KeyboardApp.track l id event.state (w.translated ime id event)) := by
  cases hmodifier : guestModifierKeycode event.physicalKey event.logicalKey with
  | some keycode =>
    refine .inl ⟨keycode, KeyboardApp.guestModifierKeycode_mem hmodifier, rfl, ?_, ?_⟩
    · simp [translated, hmodifier]
    · simp [KeyboardApp.handleKeyboard, hmodifier]
  | none =>
    have hor : ∀ {a b : Option UInt32}, (∀ k, a = some k → k ∉ guestModifierKeycodes) →
        (∀ k, b = some k → k ∉ guestModifierKeycodes) →
        ∀ k, a.or b = some k → k ∉ guestModifierKeycodes := by
      intro a b ha hb k hk
      obtain hk | ⟨-, hk⟩ := Option.or_eq_some_iff.1 hk
      · exact ha k hk
      · exact hb k hk
    have hshortcut : ∀ k, shortcutKeycode event.physicalKey = some k → k ∉ guestModifierKeycodes :=
      fun _ => KeyboardApp.shortcutKeycode_ne_modifier
    have hnamed : ∀ k, namedKeycode event.logicalKey = some k → k ∉ guestModifierKeycodes :=
      fun _ => KeyboardApp.namedKeycode_ne_modifier
    cases hstate : event.state with
    | pressed =>
      have htranslated : w.translated ime id event = w.app.pressKeycode ime id event := by
        simp [translated, hmodifier, hstate]
      obtain ⟨l, hquiet, hkeys⟩ := KeyboardApp.handleKeyboard_pressed ime hstate w.app id hmodifier
      refine .inr ⟨rfl, fun k hk => ?_, l, hquiet, fun h => (by cases h), by rw [htranslated, hkeys]⟩
      rw [htranslated, KeyboardApp.pressKeycode] at hk
      dsimp only at hk
      split_ifs at hk
      · exact hor hshortcut hnamed k hk
      · exact hnamed k (Option.filter_eq_some_iff.1 hk).1
    | released =>
      have htranslated :
          w.translated ime id event = KeyboardApp.releaseKeycode w.app.modifiers event := by
        simp [translated, hmodifier, hstate]
      have hkeys := KeyboardApp.handleKeyboard_released ime hstate w.app id hmodifier
      refine .inr ⟨rfl, fun k hk => ?_, _, .refl _, fun _ => rfl, by rw [htranslated, hkeys]⟩
      rw [htranslated, KeyboardApp.releaseKeycode] at hk
      split_ifs at hk
      · exact hor hshortcut hnamed k hk
      · exact hor hnamed hshortcut k hk

theorem prefix_handleKeyboard (w : Watched κ) (id : UInt64) (event : KeyEvent) :
    w.app.keys.sent <+: (w.app.handleKeyboard ime id event).keys.sent := by
  obtain ⟨keycode, -, -, -, hkeys⟩ | ⟨-, -, l, hquiet, -, hkeys⟩ := w.handleKeyboard_cases ime id event
  · rw [hkeys]
    exact prefix_modifierKey _ _ _ _
  · rw [hkeys]
    exact (prefix_of_quietly hquiet).trans (prefix_track _ _ _ _)

/-! ### The invariant of a run -/

structure Held (w : Watched κ) : Prop where
  covered : Covered w.mapped w.app.keys
  sent : ∀ e ∈ w.sentBy, lastKey w.app.keys.sent e.2 ≠ none

variable {w : Watched κ} {id : UInt64} {event : KeyEvent}

theorem lastKey_of_prefix {sent sent' : List InputEvent} (h : sent <+: sent') {keycode : UInt32}
    (hlast : lastKey sent keycode ≠ none) : lastKey sent' keycode ≠ none := by
  obtain ⟨rest, rfl⟩ := h
  rw [lastKey_append]
  exact fun hnone => hlast (Option.or_eq_none_iff.1 hnone).2

theorem Held.keyboard (h : w.Held) (hmeets : w.Meets ime (.keyboard id event)) :
    (w.keyboard ime id event).Held := by
  have hprefix := w.prefix_handleKeyboard ime id event
  simp only [Meets] at hmeets
  simp only [Watched.keyboard]
  cases hstate : event.state with
  | pressed =>
    simp only [hstate] at hmeets
    refine ⟨?_, fun e he => ?_⟩
    · obtain ⟨keycode, hkey, hmodifier, htranslated, hkeys⟩ | ⟨-, hkey, l, hquiet, -, hkeys⟩ :=
        w.handleKeyboard_cases ime id event
      · simp only [htranslated, Option.elim_some, hkeys, hstate]
        refine h.covered.pressModifier hkey fun hmem hheld => ?_
        simp [hmodifier, hmem, hheld] at hmeets
      · rw [hkeys, hstate]
        cases htranslated : w.translated ime id event with
        | none => exact h.covered.quietly hquiet
        | some keycode =>
          exact (h.covered.quietly hquiet).press (hkey keycode htranslated) id event.physicalKey
    · obtain he | he := List.mem_append.1 he
      · exact lastKey_of_prefix hprefix (h.sent e he)
      · obtain ⟨keycode, hpress, rfl⟩ := List.mem_map.1 he
        obtain ⟨rest, hrest⟩ := hprefix
        rw [← hrest, List.drop_left] at hpress
        rw [← hrest, lastKey_append]
        exact fun hnone => lastKey_of_pressesSent hpress (Option.or_eq_none_iff.1 hnone).1
  | released =>
    simp only [hstate] at hmeets
    refine ⟨?_, fun e he => lastKey_of_prefix hprefix (h.sent e (List.mem_of_mem_filter he))⟩
    obtain ⟨keycode, hkey, -, htranslated, hkeys⟩ | ⟨-, hkey, l, -, hl, hkeys⟩ :=
      w.handleKeyboard_cases ime id event
    · rw [htranslated] at hmeets
      rw [hkeys, hstate]
      exact h.covered.releaseModifier hkey hmeets id
    · rw [hkeys, hstate, hl hstate]
      exact h.covered.release hkey hmeets id

theorem Held.step (h : w.Held) {input : KeyboardInput κ} (hmeets : w.Meets ime input) :
    (w.step ime input).Held := by
  cases input with
  | keyboard id event => exact h.keyboard ime hmeets
  | modifiersChanged modifiers => exact ⟨h.covered, h.sent⟩
  | windowsChanged windows => exact ⟨h.covered, h.sent⟩

theorem Held.released (h : w.Held) (hstate : event.state = .released)
    (hmeets : w.Meets ime (.keyboard id event)) : w.Released ime id event := by
  intro keycode hsent
  have h' := h.keyboard ime hmeets
  have hsome : lastKey (w.keyboard ime id event).app.keys.sent keycode ≠ none := by
    have happ : (w.keyboard ime id event).app = w.app.handleKeyboard ime id event := by
      simp [Watched.keyboard, hstate]
    rw [happ]
    exact lastKey_of_prefix (w.prefix_handleKeyboard ime id event) (h.sent _ hsent)
  by_cases hheld : (w.keyboard ime id event).app.keys.pressedGuestKeys.contains keycode
  · obtain ⟨other, hother⟩ := h'.covered.holder keycode hheld
    have hmapped : (w.keyboard ime id event).mapped = w.mapped.without event.physicalKey := by
      simp [Watched.keyboard, hstate]
    refine .inr ⟨other, ?_, hother⟩
    rw [hmapped] at hother
    exact (KeyMap.mem_without.1 hother).2
  · refine .inl ⟨hheld, ?_⟩
    obtain ⟨⟨i, state⟩, hlast⟩ := Option.ne_none_iff_exists'.1 hsome
    cases state with
    | pressed => exact absurd (h'.covered.noted keycode i hlast) hheld
    | released => exact ⟨i, hlast⟩

theorem Held.run (h : w.Held) {inputs : List (KeyboardInput κ)} (hmeets : w.MeetsAll ime inputs) :
    ∀ {past : List (KeyboardInput κ)} {input}, past ++ [input] <+: inputs →
      (past.foldl (Watched.step ime) w).Held ∧ (past.foldl (Watched.step ime) w).Meets ime input := by
  induction inputs generalizing w with
  | nil =>
    intro past input hpre
    simp at hpre
  | cons first inputs ih =>
    intro past input hpre
    cases past with
    | nil =>
      obtain rfl : input = first := by simpa using hpre
      exact ⟨h, hmeets.1⟩
    | cons first' past =>
      rw [List.cons_append] at hpre
      obtain ⟨rfl, hrest⟩ := List.cons_prefix_cons.1 hpre
      exact ih (h.step ime hmeets.1) hmeets.2 hrest

/-- **Every forwarded press is released.** In every run in which no key that holds a modifier is
pressed again, and in which the release of a key is translated to the keycodes that its presses were
translated to and that the viewer still holds, whatever was sent as pressed when a key went down is
released when the key has gone up, unless another key holds it. -/
theorem forwarded_press_released {app : KeyboardApp κ} (hkeys : app.keys = .empty)
    {inputs past : List (KeyboardInput κ)} (hmeets : (start app).MeetsAll ime inputs)
    (hpre : past ++ [.keyboard id event] <+: inputs) (hstate : event.state = .released) :
    (past.foldl (step ime) (start app)).Released ime id event := by
  have hstart : (start app).Held := by
    refine ⟨?_, fun e he => by cases he⟩
    rw [start, hkeys]
    exact Covered.empty
  obtain ⟨hheld, hstep⟩ := hstart.run ime hmeets hpre
  exact hheld.released ime hstate hstep

/-! ### A chord that is let go in another order -/

/-- A composer that has nothing to compose. -/
def idleComposer : Composer Unit :=
  { isEmpty := fun _ => true, backspace := fun _ => ([], ()), pushText := fun _ _ => ([], ())
    flush := fun _ => ([], ()), canCompose := fun _ => false }

/-- The viewer with one window, before any key. -/
def idleApp : KeyboardApp Unit :=
  { keys := .empty, modifiers := .empty
    windows := Table.empty.insert 1 { title := "Files", fullscreen := false, composer := () } }

def keyEvent (code : KeyCode) (logicalKey : Key) (state : ElementState) : KeyEvent :=
  { physicalKey := .code code, logicalKey, text := none, state, isRepeat := false }

def keyInput (code : KeyCode) (logicalKey : Key) (state : ElementState) : KeyboardInput Unit :=
  .keyboard 1 (keyEvent code logicalKey state)

/-- Control and a key, and Control is let go first. -/
def copyChord : List (KeyboardInput Unit) :=
  [keyInput .controlLeft (.named .control) .pressed,
    .modifiersChanged { ModifiersState.empty with controlKey := true },
    keyInput .keyC (.character "c") .pressed,
    keyInput .controlLeft (.named .control) .released,
    .modifiersChanged .empty,
    keyInput .keyC (.character "c") .released]

theorem forwarded_press_released_copy :
    (start idleApp).MeetsAll idleComposer copyChord ∧
      ((copyChord.take 5).foldl (step idleComposer) (start idleApp)).Released idleComposer 1
        (keyEvent .keyC (.character "c") .released) := by
  have hmeets : (start idleApp).MeetsAll idleComposer copyChord := by
    simp only [MeetsAll, copyChord, Meets, keyInput, keyEvent]
    decide
  exact ⟨hmeets, forwarded_press_released idleComposer rfl hmeets ⟨[], rfl⟩ rfl⟩

/-- Every press is followed by a release of the same key. -/
def everyPressReleased : List (KeyboardInput κ) → Bool
  | [] => true
  | .keyboard _ event :: rest =>
    (event.state = .released || rest.any fun input =>
      match input with
      | .keyboard _ later => later.state = .released && later.physicalKey = event.physicalKey
      | _ => false) && everyPressReleased rest
  | _ :: rest => everyPressReleased rest

/-- What the space bar means, a name for which the viewer has no keycode. -/
def spaceKey : Key := .named (.other 0)

/-- Control and the space bar, and Command comes in before the space bar is let go. -/
def spaceChord : List (KeyboardInput Unit) :=
  [keyInput .controlLeft (.named .control) .pressed,
    .modifiersChanged { ModifiersState.empty with controlKey := true },
    keyInput .space spaceKey .pressed,
    keyInput .superLeft (.named .super) .pressed,
    .modifiersChanged { ModifiersState.empty with controlKey := true, superKey := true },
    keyInput .space spaceKey .released,
    keyInput .superLeft (.named .super) .released,
    .modifiersChanged { ModifiersState.empty with controlKey := true },
    keyInput .controlLeft (.named .control) .released,
    .modifiersChanged .empty]

/-- The release of the space bar is taken for a part of the host's own chord, and the guest keeps the
space bar pressed. -/
theorem space_left_pressed :
    ¬ ∀ (app : KeyboardApp Unit) (inputs past : List (KeyboardInput Unit)) (id : UInt64)
      (event : KeyEvent), app.keys = .empty → everyPressReleased inputs →
      past ++ [.keyboard id event] <+: inputs → event.state = .released →
      (past.foldl (step idleComposer) (start app)).Released idleComposer id event := by
  intro h
  have hspace := h idleApp spaceChord (spaceChord.take 5) 1
    (keyEvent .space spaceKey .released) rfl (by decide) ⟨spaceChord.drop 6, rfl⟩ rfl 57
    (by decide)
  obtain ⟨hnot, -⟩ | ⟨other, -, hother⟩ := hspace
  · exact hnot (by decide)
  · have hall : ∀ e ∈ (((spaceChord.take 5).foldl (step idleComposer) (start idleApp)).keyboard
        idleComposer 1 (keyEvent .space spaceKey .released)).mapped, e.2 ≠ 57 := by decide
    exact hall _ hother rfl

end Watched

end VBox
