import Mathlib.Data.List.Basic
import Mathlib.Data.List.Induction
import VBox.Lib.Table
import VBox.Proto.Message

/-!
# Viewer.KeyLedger

Which keys the viewer holds down in the guest (`crates/client/src/viewer/app.rs`): the window each
one was pressed for, and how many host keys hold a modifier.

* `KeyLedger.Balanced`: the table of held keys is what the events sent so far say, and every release
  that was sent ended a press for the same window.
* `KeyLedger.ModifiersCounted`: the two tables have the same modifiers, each with a count.
-/

namespace VBox

inductive ElementState where
  | pressed
  | released
  deriving DecidableEq

/-! ## Modifiers -/

def keyLeftctrl : UInt32 := 29

def keyLeftshift : UInt32 := 42

def keyRightshift : UInt32 := 54

def keyLeftalt : UInt32 := 56

def keyRightctrl : UInt32 := 97

def keyRightalt : UInt32 := 100

/-- The keycodes that `guest_modifier_keycode` returns. -/
def guestModifierKeycodes : List UInt32 :=
  [keyLeftctrl, keyRightctrl, keyLeftshift, keyRightshift, keyLeftalt, keyRightalt]

/-- `usize::MAX` of a 64-bit host. -/
def usizeMax : Nat := 2 ^ 64 - 1

/-- The counts after a key event, with whether the event goes to the guest. -/
def guestModifierRefcountShouldForward (counts : Table UInt32 Nat) (keycode : UInt32) :
    ElementState → Bool × Table UInt32 Nat
  | .pressed =>
    let count := (counts.get? keycode).getD 0
    (count = 0, counts.insert keycode (min (count + 1) usizeMax))
  | .released =>
    match counts.get? keycode with
    | none => (false, counts)
    | some count =>
      if 1 < count then (false, counts.insert keycode (count - 1))
      else (true, counts.remove keycode)

/-! ## The ledger -/

/-- The two tables of keys, and what was sent to the guest. -/
structure KeyLedger where
  pressedGuestKeys : Table UInt32 UInt64
  pressedGuestModifierCounts : Table UInt32 Nat
  sent : List InputEvent

namespace KeyLedger

def empty : KeyLedger :=
  { pressedGuestKeys := .empty, pressedGuestModifierCounts := .empty, sent := [] }

def sendInput (l : KeyLedger) (event : InputEvent) : KeyLedger := { l with sent := l.sent ++ [event] }

def sendTrackedGuestKey (l : KeyLedger) (id : UInt64) (keycode : UInt32) :
    ElementState → KeyLedger
  | .pressed =>
    { l with pressedGuestKeys := l.pressedGuestKeys.insert keycode id }.sendInput
      (.key id keycode .pressed)
  | .released =>
    match l.pressedGuestKeys.get? keycode with
    | none => l
    | some pressedId =>
      { l with pressedGuestKeys := l.pressedGuestKeys.remove keycode }.sendInput
        (.key pressedId keycode .released)

def sendTrackedGuestModifierKey (l : KeyLedger) (id : UInt64) (keycode : UInt32)
    (state : ElementState) : KeyLedger :=
  let (forward, counts) :=
    guestModifierRefcountShouldForward l.pressedGuestModifierCounts keycode state
  let l := { l with pressedGuestModifierCounts := counts }
  if forward then l.sendTrackedGuestKey id keycode state else l

/-- Sent as it is, without a note in the ledger. -/
def sendGuestKey (l : KeyLedger) (id : UInt64) (keycode : UInt32) (state : InputKeyState) : KeyLedger :=
  l.sendInput (.key id keycode state)

/-- The body of the loop of `release_window_guest_keys`. -/
def releaseWindowGuestKey (id : UInt64) (l : KeyLedger) (keycode : UInt32) : KeyLedger :=
  { l with
    pressedGuestKeys := l.pressedGuestKeys.remove keycode
    pressedGuestModifierCounts := l.pressedGuestModifierCounts.remove keycode }.sendInput
    (.key id keycode .released)

/-- `iter` has the held keys in the order in which the hash map is walked. -/
def releaseWindowGuestKeys (l : KeyLedger) (id : UInt64) (iter : List UInt32) : KeyLedger :=
  if iter.isEmpty then l
  else
    let keycodes := iter.filter fun keycode => l.pressedGuestKeys.get? keycode = some id
    keycodes.foldl (releaseWindowGuestKey id) l

/-- A walk over the table of held keys. -/
structure Walks (l : KeyLedger) (iter : List UInt32) : Prop where
  nodup : iter.Nodup
  mem_iff : ∀ keycode, keycode ∈ iter ↔ l.pressedGuestKeys.contains keycode

/-- With whether there was a key to release. -/
def releaseGuestKeyIfPressed (l : KeyLedger) (keycode : UInt32) : Bool × KeyLedger :=
  let l := { l with pressedGuestModifierCounts := l.pressedGuestModifierCounts.remove keycode }
  match l.pressedGuestKeys.get? keycode with
  | none => (false, l)
  | some pressedId =>
    (true, { l with pressedGuestKeys := l.pressedGuestKeys.remove keycode }.sendInput
      (.key pressedId keycode .released))

/-! ## What was sent about a key -/

/-- The window and the state of the last event about a key. -/
def lastKey (sent : List InputEvent) (keycode : UInt32) : Option (UInt64 × InputKeyState) :=
  sent.foldl
    (fun last event =>
      match event with
      | .key id k state => if k = keycode then some (id, state) else last
      | _ => last)
    none

@[simp] theorem lastKey_nil (keycode : UInt32) : lastKey [] keycode = none := rfl

@[simp] theorem lastKey_key (sent : List InputEvent) (id : UInt64) (k : UInt32)
    (state : InputKeyState) (keycode : UInt32) :
    lastKey (sent ++ [.key id k state]) keycode =
      if k = keycode then some (id, state) else lastKey sent keycode := by
  simp [lastKey]

theorem lastKey_append (sent sent' : List InputEvent) (keycode : UInt32) :
    lastKey (sent ++ sent') keycode = (lastKey sent' keycode).or (lastKey sent keycode) := by
  induction sent' using List.reverseRecOn with
  | nil => simp
  | append_singleton sent' event ih =>
    rw [← List.append_assoc]
    cases event with
    | key id k state =>
      rw [lastKey_key, lastKey_key, ih]
      split <;> rfl
    | _ => simpa [lastKey] using ih

/-- More was sent, and the table is as it was. -/
def log (l : KeyLedger) (events : List InputEvent) : KeyLedger := { l with sent := l.sent ++ events }

/-- Events that leave no key pressed. -/
def Quiet (events : List InputEvent) : Prop :=
  ∀ keycode id, lastKey events keycode ≠ some (id, .pressed)

/-- Only events that leave no key pressed were sent. -/
def Quietly (l l' : KeyLedger) : Prop := ∃ events, Quiet events ∧ l' = l.log events

theorem quiet_nil : Quiet [] := by
  intro keycode id h
  cases h

theorem Quiet.append {events events' : List InputEvent} (h : Quiet events) (h' : Quiet events') :
    Quiet (events ++ events') := by
  intro keycode id hlast
  rw [lastKey_append] at hlast
  obtain hlast | ⟨-, hlast⟩ := Option.or_eq_some_iff.1 hlast
  · exact h' keycode id hlast
  · exact h keycode id hlast

/-- A key that is pressed and released around quiet events. -/
theorem Quiet.tap {events : List InputEvent} (h : Quiet events) (id : UInt64) (keycode : UInt32) :
    Quiet (.key id keycode .pressed :: (events ++ [.key id keycode .released])) := by
  intro keycode' id' hlast
  rw [← List.cons_append, lastKey_key] at hlast
  split at hlast
  · cases hlast
  · rename_i hne
    rw [← List.singleton_append, lastKey_append] at hlast
    obtain hlast | ⟨-, hlast⟩ := Option.or_eq_some_iff.1 hlast
    · exact h keycode' id' hlast
    · rw [← List.nil_append [InputEvent.key id keycode .pressed], lastKey_key, if_neg hne] at hlast
      cases hlast

theorem quiet_of_not_key {events : List InputEvent}
    (h : ∀ event ∈ events, ∀ id keycode state, event ≠ .key id keycode state) : Quiet events := by
  induction events using List.reverseRecOn with
  | nil => exact quiet_nil
  | append_singleton events event ih =>
    refine (ih fun e he => h e (List.mem_append_left _ he)).append fun keycode id hlast => ?_
    cases event with
    | key i k state => exact h _ (List.mem_append_right _ List.mem_cons_self) i k state rfl
    | _ => cases hlast

theorem Quietly.refl (l : KeyLedger) : l.Quietly l := ⟨[], quiet_nil, by simp [log]⟩

theorem Quietly.trans {l l' l'' : KeyLedger} (h : l.Quietly l') (h' : l'.Quietly l'') :
    l.Quietly l'' := by
  obtain ⟨events, hquiet, rfl⟩ := h
  obtain ⟨events', hquiet', rfl⟩ := h'
  exact ⟨events ++ events', hquiet.append hquiet', by simp [log]⟩

/-- The table agrees with what was sent, and every release ended the last press of its key. -/
structure Balanced (l : KeyLedger) : Prop where
  held : ∀ keycode id,
    lastKey l.sent keycode = some (id, .pressed) ↔ l.pressedGuestKeys.get? keycode = some id
  matched : ∀ before id keycode after, l.sent = before ++ .key id keycode .released :: after →
    lastKey before keycode = some (id, .pressed)

/-- A modifier is counted exactly while it is held. -/
structure ModifiersCounted (l : KeyLedger) : Prop where
  counted : ∀ keycode ∈ guestModifierKeycodes,
    (l.pressedGuestModifierCounts.contains keycode ↔ l.pressedGuestKeys.contains keycode)
  positive : ∀ keycode count, l.pressedGuestModifierCounts.get? keycode = some count → 1 ≤ count

theorem balanced_empty : empty.Balanced := by
  refine ⟨fun keycode id => ?_, fun before id keycode after h => ?_⟩
  · simp [empty]
  · simp [empty] at h

theorem modifiersCounted_empty : empty.ModifiersCounted := by
  refine ⟨fun keycode _ => ?_, fun keycode count h => ?_⟩
  · simp [empty, Table.contains]
  · simp [empty] at h

variable {l : KeyLedger} {id : UInt64} {keycode : UInt32}

/-- The last event of a longer log is a release only where one was added. -/
theorem matched_snoc {sent : List InputEvent} {event : InputEvent}
    (hsent : ∀ before id keycode after, sent = before ++ .key id keycode .released :: after →
      lastKey before keycode = some (id, .pressed))
    (hevent : ∀ id keycode, event = .key id keycode .released →
      lastKey sent keycode = some (id, .pressed)) :
    ∀ before id keycode after, sent ++ [event] = before ++ .key id keycode .released :: after →
      lastKey before keycode = some (id, .pressed) := by
  intro before id keycode after h
  obtain rfl | ⟨after, e, rfl⟩ := List.eq_nil_or_concat after
  · obtain ⟨rfl, hlast⟩ := List.append_inj' h rfl
    exact hevent id keycode (List.singleton_inj.1 hlast)
  · rw [List.concat_eq_append, ← List.cons_append, ← List.append_assoc] at h
    exact hsent before id keycode after (List.append_inj' h rfl).1

theorem Balanced.press (h : l.Balanced) (counts : Table UInt32 Nat) :
    Balanced
      { pressedGuestKeys := l.pressedGuestKeys.insert keycode id
        pressedGuestModifierCounts := counts
        sent := l.sent ++ [.key id keycode .pressed] } := by
  refine ⟨fun k i => ?_, matched_snoc h.matched fun i k hevent => by cases hevent⟩
  by_cases hk : keycode = k
  · subst hk
    simp
  · simp [hk, Ne.symm hk, h.held k i]

theorem Balanced.release (h : l.Balanced) (hheld : l.pressedGuestKeys.get? keycode = some id)
    (counts : Table UInt32 Nat) :
    Balanced
      { pressedGuestKeys := l.pressedGuestKeys.remove keycode
        pressedGuestModifierCounts := counts
        sent := l.sent ++ [.key id keycode .released] } := by
  refine ⟨fun k i => ?_, matched_snoc h.matched fun i k hevent => ?_⟩
  · by_cases hk : keycode = k
    · subst hk
      simp
    · simp [hk, Ne.symm hk, h.held k i]
  · cases hevent
    exact (h.held keycode id).2 hheld

theorem Balanced.of_counts (h : l.Balanced) (counts : Table UInt32 Nat) :
    Balanced { l with pressedGuestModifierCounts := counts } :=
  ⟨h.held, h.matched⟩

theorem Balanced.sendTrackedGuestKey (h : l.Balanced) (id : UInt64) (keycode : UInt32)
    (state : ElementState) : (l.sendTrackedGuestKey id keycode state).Balanced := by
  cases state with
  | pressed => exact h.press _
  | released =>
    unfold KeyLedger.sendTrackedGuestKey
    cases hheld : l.pressedGuestKeys.get? keycode with
    | none => exact h
    | some pressedId => exact h.release hheld _

theorem Balanced.sendTrackedGuestModifierKey (h : l.Balanced) (id : UInt64) (keycode : UInt32)
    (state : ElementState) : (l.sendTrackedGuestModifierKey id keycode state).Balanced := by
  simp only [KeyLedger.sendTrackedGuestModifierKey]
  split
  · exact (h.of_counts _).sendTrackedGuestKey id keycode state
  · exact h.of_counts _

theorem Balanced.releaseGuestKeyIfPressed (h : l.Balanced) (keycode : UInt32) :
    (l.releaseGuestKeyIfPressed keycode).2.Balanced := by
  simp only [KeyLedger.releaseGuestKeyIfPressed]
  cases hheld : l.pressedGuestKeys.get? keycode with
  | none => exact h.of_counts _
  | some pressedId => exact h.release hheld _

/-! ### The keys of a window -/

/-- The loop of `release_window_guest_keys`: the keys of the list are not held after it, and the
others are as before. -/
theorem get?_releaseLoop (id : UInt64) (keycodes : List UInt32) (l : KeyLedger) (k : UInt32) :
    (keycodes.foldl (releaseWindowGuestKey id) l).pressedGuestKeys.get? k =
        (if k ∈ keycodes then none else l.pressedGuestKeys.get? k) ∧
      (keycodes.foldl (releaseWindowGuestKey id) l).pressedGuestModifierCounts.get? k =
        (if k ∈ keycodes then none else l.pressedGuestModifierCounts.get? k) := by
  induction keycodes generalizing l with
  | nil => simp
  | cons keycode keycodes ih =>
    obtain ⟨hkeys, hcounts⟩ := ih (releaseWindowGuestKey id l keycode)
    rw [List.foldl_cons, hkeys, hcounts]
    by_cases hk : k = keycode <;> simp [releaseWindowGuestKey, sendInput, hk]

theorem Balanced.releaseLoop {keycodes : List UInt32} (hnodup : keycodes.Nodup) :
    ∀ {l : KeyLedger}, l.Balanced →
      (∀ keycode ∈ keycodes, l.pressedGuestKeys.get? keycode = some id) →
      (keycodes.foldl (releaseWindowGuestKey id) l).Balanced := by
  induction keycodes with
  | nil => intro l h _; exact h
  | cons keycode keycodes ih =>
    intro l h hheld
    obtain ⟨hfresh, hnodup⟩ := List.nodup_cons.1 hnodup
    refine ih hnodup (h.release (hheld keycode List.mem_cons_self) _) fun k hk => ?_
    have hne : k ≠ keycode := fun heq => hfresh (heq ▸ hk)
    simpa [releaseWindowGuestKey, sendInput, hne] using hheld k (List.mem_cons_of_mem _ hk)

variable {iter : List UInt32}

theorem releaseWindowGuestKeys_eq (l : KeyLedger) (id : UInt64) (iter : List UInt32) :
    l.releaseWindowGuestKeys id iter =
      (iter.filter fun keycode => l.pressedGuestKeys.get? keycode = some id).foldl
        (releaseWindowGuestKey id) l := by
  unfold KeyLedger.releaseWindowGuestKeys
  split
  · rename_i hempty
    rw [List.isEmpty_iff.1 hempty]
    rfl
  · rfl

theorem Walks.mem_keycodes (hiter : l.Walks iter) (id : UInt64) (k : UInt32) :
    k ∈ (iter.filter fun keycode => l.pressedGuestKeys.get? keycode = some id) ↔
      l.pressedGuestKeys.get? k = some id := by
  simp only [List.mem_filter, decide_eq_true_eq, and_iff_right_iff_imp]
  intro hk
  exact (hiter.mem_iff k).2 (Table.contains_of_get? hk)

theorem Balanced.releaseWindowGuestKeys (h : l.Balanced) (hiter : l.Walks iter) (id : UInt64) :
    (l.releaseWindowGuestKeys id iter).Balanced := by
  rw [releaseWindowGuestKeys_eq]
  exact h.releaseLoop (hiter.nodup.filter _) fun k hk => (hiter.mem_keycodes id k).1 hk

/-- After it no key is held for the window, and the keys of other windows are as before. -/
theorem get?_releaseWindowGuestKeys (hiter : l.Walks iter) (id : UInt64) (k : UInt32) :
    (l.releaseWindowGuestKeys id iter).pressedGuestKeys.get? k =
      (if l.pressedGuestKeys.get? k = some id then none else l.pressedGuestKeys.get? k) ∧
    (l.releaseWindowGuestKeys id iter).pressedGuestModifierCounts.get? k =
      (if l.pressedGuestKeys.get? k = some id then none
        else l.pressedGuestModifierCounts.get? k) := by
  have hloop := get?_releaseLoop id
    (iter.filter fun keycode => l.pressedGuestKeys.get? keycode = some id) l k
  rw [releaseWindowGuestKeys_eq]
  simpa only [hiter.mem_keycodes id k] using hloop

/-! ### Modifiers -/

/-- What a modifier key does, by how many host keys hold the modifier. -/
theorem sendTrackedGuestModifierKey_cases (l : KeyLedger) (id : UInt64) (keycode : UInt32)
    (state : ElementState) :
    (state = .pressed ∧ (l.pressedGuestModifierCounts.get? keycode).getD 0 = 0 ∧
      l.sendTrackedGuestModifierKey id keycode state =
        { pressedGuestKeys := l.pressedGuestKeys.insert keycode id
          pressedGuestModifierCounts := l.pressedGuestModifierCounts.insert keycode 1
          sent := l.sent ++ [.key id keycode .pressed] }) ∨
    (∃ count, state = .pressed ∧ l.pressedGuestModifierCounts.get? keycode = some (count + 1) ∧
      l.sendTrackedGuestModifierKey id keycode state =
        { l with
          pressedGuestModifierCounts :=
            l.pressedGuestModifierCounts.insert keycode (min (count + 2) usizeMax) }) ∨
    (state = .released ∧ l.pressedGuestModifierCounts.get? keycode = none ∧
      l.sendTrackedGuestModifierKey id keycode state = l) ∨
    (∃ count, state = .released ∧ l.pressedGuestModifierCounts.get? keycode = some (count + 2) ∧
      l.sendTrackedGuestModifierKey id keycode state =
        { l with
          pressedGuestModifierCounts := l.pressedGuestModifierCounts.insert keycode (count + 1) }) ∨
    (∃ count, state = .released ∧ l.pressedGuestModifierCounts.get? keycode = some count ∧ count ≤ 1 ∧
      l.sendTrackedGuestModifierKey id keycode state =
        { l with
          pressedGuestModifierCounts :=
            l.pressedGuestModifierCounts.remove keycode }.sendTrackedGuestKey id keycode .released) := by
  cases state with
  | pressed =>
    by_cases hzero : (l.pressedGuestModifierCounts.get? keycode).getD 0 = 0
    · refine .inl ⟨rfl, hzero, ?_⟩
      simp [sendTrackedGuestModifierKey, guestModifierRefcountShouldForward, hzero,
        sendTrackedGuestKey, sendInput, usizeMax]
    · obtain ⟨count, hcount⟩ : ∃ count, l.pressedGuestModifierCounts.get? keycode = some (count + 1) := by
        cases hget : l.pressedGuestModifierCounts.get? keycode with
        | none => simp [hget] at hzero
        | some n =>
          simp only [hget, Option.getD_some] at hzero
          exact ⟨n - 1, by congr 1; omega⟩
      refine .inr (.inl ⟨count, rfl, hcount, ?_⟩)
      simp [sendTrackedGuestModifierKey, guestModifierRefcountShouldForward, hcount]
  | released =>
    cases hcount : l.pressedGuestModifierCounts.get? keycode with
    | none =>
      refine .inr (.inr (.inl ⟨rfl, rfl, ?_⟩))
      simp [sendTrackedGuestModifierKey, guestModifierRefcountShouldForward, hcount]
    | some count =>
      by_cases hmore : 1 < count
      · obtain ⟨n, rfl⟩ : ∃ n, count = n + 2 := ⟨count - 2, by omega⟩
        refine .inr (.inr (.inr (.inl ⟨n, rfl, rfl, ?_⟩)))
        simp [sendTrackedGuestModifierKey, guestModifierRefcountShouldForward, hcount]
      · refine .inr (.inr (.inr (.inr ⟨count, rfl, rfl, by omega, ?_⟩)))
        simp [sendTrackedGuestModifierKey, guestModifierRefcountShouldForward, hcount, hmore]

/-- A step that touches one key only. -/
theorem ModifiersCounted.of_key {l' : KeyLedger} (h : l.ModifiersCounted) (keycode : UInt32)
    (hkeys : ∀ k, k ≠ keycode → l'.pressedGuestKeys.get? k = l.pressedGuestKeys.get? k)
    (hcounts : ∀ k, k ≠ keycode →
      l'.pressedGuestModifierCounts.get? k = l.pressedGuestModifierCounts.get? k)
    (hcounted : keycode ∈ guestModifierKeycodes →
      (l'.pressedGuestModifierCounts.contains keycode ↔ l'.pressedGuestKeys.contains keycode))
    (hpositive : ∀ count, l'.pressedGuestModifierCounts.get? keycode = some count → 1 ≤ count) :
    l'.ModifiersCounted := by
  refine ⟨fun k hk => ?_, fun k count hcount => ?_⟩
  · by_cases heq : k = keycode
    · subst heq
      exact hcounted hk
    · have := h.counted k hk
      simp only [Table.contains] at this ⊢
      rwa [hkeys k heq, hcounts k heq]
  · by_cases heq : k = keycode
    · subst heq
      exact hpositive count hcount
    · exact h.positive k count (hcounts k heq ▸ hcount)

theorem ModifiersCounted.sendTrackedGuestKey (h : l.ModifiersCounted)
    (hkey : keycode ∉ guestModifierKeycodes) (id : UInt64) (state : ElementState) :
    (l.sendTrackedGuestKey id keycode state).ModifiersCounted := by
  cases state with
  | pressed =>
    refine h.of_key keycode (fun k hk => ?_) (fun _ _ => rfl) (fun hk => absurd hk hkey)
      (h.positive keycode)
    simp [KeyLedger.sendTrackedGuestKey, sendInput, hk]
  | released =>
    unfold KeyLedger.sendTrackedGuestKey
    cases hheld : l.pressedGuestKeys.get? keycode with
    | none => exact h
    | some pressedId =>
      refine h.of_key keycode (fun k hk => ?_) (fun _ _ => rfl) (fun hk => absurd hk hkey)
        (h.positive keycode)
      simp [sendInput, hk]

/-- A modifier's count and its entry in the table of held keys come and go together. -/
theorem ModifiersCounted.sendTrackedGuestModifierKey (h : l.ModifiersCounted)
    (hkey : keycode ∈ guestModifierKeycodes) (id : UInt64) (state : ElementState) :
    (l.sendTrackedGuestModifierKey id keycode state).ModifiersCounted := by
  obtain ⟨-, -, heq⟩ | ⟨count, -, hcount, heq⟩ | ⟨-, -, heq⟩ | ⟨count, -, hcount, heq⟩ |
    ⟨count, -, hcount, -, heq⟩ := sendTrackedGuestModifierKey_cases l id keycode state
  · rw [heq]
    refine h.of_key keycode (fun k hk => ?_) (fun k hk => ?_) (fun _ => ?_) (fun n hn => ?_)
    · simp [hk]
    · simp [hk]
    · simp
    · simp at hn
      omega
  · have hheld := (h.counted keycode hkey).1 (Table.contains_of_get? hcount)
    rw [heq]
    refine h.of_key keycode (fun _ _ => rfl) (fun k hk => ?_) (fun _ => ?_) (fun n hn => ?_)
    · simp [hk]
    · simp [hheld]
    · simp [usizeMax] at hn
      omega
  · rw [heq]
    exact h
  · have hheld := (h.counted keycode hkey).1 (Table.contains_of_get? hcount)
    rw [heq]
    refine h.of_key keycode (fun _ _ => rfl) (fun k hk => ?_) (fun _ => ?_) (fun n hn => ?_)
    · simp [hk]
    · simp [hheld]
    · simp at hn
      omega
  · have hheld := (h.counted keycode hkey).1 (Table.contains_of_get? hcount)
    obtain ⟨pressedId, hpressed⟩ := (Table.contains_iff _ _).1 hheld
    rw [heq]
    simp only [KeyLedger.sendTrackedGuestKey, hpressed, sendInput]
    refine h.of_key keycode (fun k hk => ?_) (fun k hk => ?_) (fun _ => ?_) (fun n hn => ?_)
    · simp [hk]
    · simp [hk]
    · simp
    · simp at hn

theorem ModifiersCounted.releaseGuestKeyIfPressed (h : l.ModifiersCounted) (keycode : UInt32) :
    (l.releaseGuestKeyIfPressed keycode).2.ModifiersCounted := by
  simp only [KeyLedger.releaseGuestKeyIfPressed]
  cases hheld : l.pressedGuestKeys.get? keycode with
  | none =>
    refine h.of_key keycode (fun _ _ => rfl) (fun k hk => ?_) (fun _ => ?_) (fun n hn => ?_)
    · simp [hk]
    · simp [Table.contains, hheld]
    · simp at hn
  | some pressedId =>
    refine h.of_key keycode (fun k hk => ?_) (fun k hk => ?_) (fun _ => ?_) (fun n hn => ?_)
    · simp [sendInput, hk]
    · simp [sendInput, hk]
    · simp [sendInput]
    · simp [sendInput] at hn

theorem ModifiersCounted.releaseWindowGuestKeys (h : l.ModifiersCounted) (hiter : l.Walks iter)
    (id : UInt64) : (l.releaseWindowGuestKeys id iter).ModifiersCounted := by
  refine ⟨fun k hk => ?_, fun k count hcount => ?_⟩
  · obtain ⟨hkeys, hcounts⟩ := get?_releaseWindowGuestKeys hiter id k
    have hk' := h.counted k hk
    simp only [Table.contains] at hk' ⊢
    rw [hkeys, hcounts]
    split <;> simp_all
  · rw [(get?_releaseWindowGuestKeys hiter id k).2] at hcount
    split at hcount
    · cases hcount
    · exact h.positive k count hcount

end KeyLedger
end VBox
