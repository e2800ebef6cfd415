import Mathlib.Logic.Function.Basic
import VBox.Proto.Message
import VBox.Lib.Runs

/-!
# Session.Registration

The slots through which the TCP thread reaches the running view session (`input_registration.rs` and
`clipboard.rs` in `crates/server/src/wayland_session`). A slot is process-wide and holds the sender
of the session that registered last; the drop of any registration empties it.

A session registers its senders, runs, and at its end drops its `App`, with both receivers, before
its registrations. Sessions of a viewer that reconnects overlap.

* `Slot.follows_step`: one step keeps the slot on the newest session if and only if the step is
  allowed.
* `Registry.follows_iff`: so do whole histories, for both slots.
-/

namespace VBox

/-- A slot and the channels behind it. `receivers` are the sessions whose receiver is alive, the
newest first. -/
structure Slot (μ : Type) where
  sender : Option Nat
  receivers : List Nat
  queue : Nat → List μ

inductive SlotEvent (μ : Type) where
  | registered (session : Nat)
  /-- The session stops, and its receiver is dropped. -/
  | stopped (session : Nat)
  /-- The registration is dropped. -/
  | dropped (session : Nat)
  | sent (payload : μ)

namespace Slot

variable {μ : Type}

def start : Slot μ := { sender := none, receivers := [], queue := fun _ => [] }

/-- A message in the channel of a session. -/
def deliver (s : Slot μ) (session : Nat) (payload : μ) : Slot μ :=
  { s with queue := Function.update s.queue session (s.queue session ++ [payload]) }

/-- `mpsc::Sender::send` fails when the receiver is gone. -/
def send (s : Slot μ) (payload : μ) : Slot μ × Bool :=
  match s.sender with
  | none => (s, false)
  | some session =>
    if session ∈ s.receivers then (s.deliver session payload, true) else (s, false)

def register (s : Slot μ) (session : Nat) : Slot μ :=
  { s with sender := some session, receivers := session :: s.receivers }

def stop (s : Slot μ) (session : Nat) : Slot μ :=
  { s with receivers := s.receivers.filter (· ≠ session) }

/-- The registration does not know which sender is its own. -/
def drop (s : Slot μ) : Slot μ := { s with sender := none }

def step (s : Slot μ) : SlotEvent μ → Slot μ
  | .registered session => s.register session
  | .stopped session => s.stop session
  | .dropped _ => s.drop
  | .sent payload => (s.send payload).1

/-- While a session runs, a message goes to the newest one that does. -/
def Follows (s : Slot μ) : Prop :=
  ∀ session, s.receivers.head? = some session →
    ∀ payload, s.send payload = (s.deliver session payload, true)

/-- A registration is dropped when no session runs, and the newest session stops when no other one
runs. -/
def Allows (s : Slot μ) : SlotEvent μ → Prop
  | .registered _ => True
  | .stopped session => s.receivers.head? = some session → ∀ other ∈ s.receivers, other = session
  | .dropped _ => s.receivers = []
  | .sent _ => True

variable {s : Slot μ}

theorem deliver_inj {a b : Nat} {payload : μ} (h : s.deliver a payload = s.deliver b payload) :
    a = b := by
  by_contra hne
  have hqueue := congrFun (congrArg queue h) a
  simp [deliver, Function.update_of_ne hne] at hqueue

theorem follows_iff_sender [Inhabited μ] :
    s.Follows ↔ ∀ session, s.receivers.head? = some session → s.sender = some session := by
  constructor
  · intro h session hhead
    have hsend := h session hhead default
    rw [send] at hsend
    split at hsend
    · simp at hsend
    · rename_i other hother
      split at hsend
      · rw [hother, deliver_inj (Prod.mk.inj hsend).1]
      · simp at hsend
  · intro h session hhead payload
    have hmem : session ∈ s.receivers := List.mem_of_head? hhead
    simp [send, h session hhead, hmem]

theorem head?_filter_ne {session other : Nat} {receivers : List Nat}
    (hhead : receivers.head? = some other) (hne : other ≠ session) :
    (receivers.filter (· ≠ session)).head? = some other := by
  cases receivers with
  | nil => cases hhead
  | cons x xs =>
    cases hhead
    simp [hne]

theorem follows_stop [Inhabited μ] (hs : s.Follows) (session : Nat) :
    (s.stop session).Follows ↔ s.Allows (.stopped session) := by
  rw [follows_iff_sender] at hs ⊢
  constructor
  · intro h hhead other hmem
    by_contra hne
    -- another session runs on, and the slot still has the sender of the one that stopped
    have hother : other ∈ (s.stop session).receivers := by simp [stop, hmem, hne]
    obtain ⟨newest, hnewest⟩ : ∃ newest, (s.stop session).receivers.head? = some newest :=
      Option.isSome_iff_exists.1 (List.isSome_head?.2 (List.ne_nil_of_mem hother))
    have hsender : some session = some newest := (hs session hhead).symm.trans (h newest hnewest)
    have hmem' : newest ∈ (s.stop session).receivers := List.mem_of_head? hnewest
    cases hsender
    simp [stop] at hmem'
  · intro hallows newest hnewest
    have hmem : newest ∈ s.receivers ∧ newest ≠ session := by
      simpa [stop] using List.mem_of_head? hnewest
    obtain ⟨first, hfirst⟩ : ∃ first, s.receivers.head? = some first :=
      Option.isSome_iff_exists.1 (List.isSome_head?.2 (List.ne_nil_of_mem hmem.1))
    by_cases hne : first = session
    · cases hne
      exact absurd (hallows hfirst newest hmem.1) hmem.2
    · have hhead : (s.stop session).receivers.head? = some first := head?_filter_ne hfirst hne
      rw [hnewest] at hhead
      cases hhead
      exact hs newest hfirst

theorem follows_step [Inhabited μ] (hs : s.Follows) (e : SlotEvent μ) :
    (s.step e).Follows ↔ s.Allows e := by
  cases e with
  | registered session =>
    refine iff_of_true (follows_iff_sender.2 fun newest hnewest => ?_) trivial
    simpa [step, register] using hnewest
  | stopped session => exact follows_stop hs session
  | dropped session =>
    rw [follows_iff_sender]
    cases hreceivers : s.receivers with
    | nil => simp [step, drop, Allows, hreceivers]
    | cons newest others => simp [step, drop, Allows, hreceivers]
  | sent payload =>
    refine iff_of_true (follows_iff_sender.2 fun newest hnewest => ?_) trivial
    have hsame : (s.step (.sent payload)).sender = s.sender ∧
        (s.step (.sent payload)).receivers = s.receivers := by
      simp only [step, send]
      split
      · exact ⟨rfl, rfl⟩
      · split <;> exact ⟨rfl, rfl⟩
    rw [hsame.1]
    exact follows_iff_sender.1 hs newest (hsame.2 ▸ hnewest)

end Slot

/-- The slots of the process. -/
structure Registry where
  input : Slot InputEvent
  clipboard : Slot Clipboard

inductive RegistryEvent where
  | input (e : SlotEvent InputEvent)
  | clipboard (e : SlotEvent Clipboard)

namespace Registry

def start : Registry := { input := .start, clipboard := .start }

def sendInput (r : Registry) (event : InputEvent) : Registry × Bool :=
  let (input, ok) := r.input.send event
  ({ r with input }, ok)

def sendClipboard (r : Registry) (payload : Clipboard) : Registry × Bool :=
  let (clipboard, ok) := r.clipboard.send payload
  ({ r with clipboard }, ok)

def step (r : Registry) : RegistryEvent → Registry
  | .input e => { r with input := r.input.step e }
  | .clipboard e => { r with clipboard := r.clipboard.step e }

def run (r : Registry) (events : List RegistryEvent) : Registry := events.foldl step r

/-- Whatever is sent reaches the newest session that runs. -/
def Follows (r : Registry) : Prop :=
  (∀ session, r.input.receivers.head? = some session → ∀ event,
    r.sendInput event = ({ r with input := r.input.deliver session event }, true)) ∧
  (∀ session, r.clipboard.receivers.head? = some session → ∀ payload,
    r.sendClipboard payload = ({ r with clipboard := r.clipboard.deliver session payload }, true))

def Allows (r : Registry) : RegistryEvent → Prop
  | .input e => r.input.Allows e
  | .clipboard e => r.clipboard.Allows e

variable {r : Registry}

theorem follows_iff_slots : r.Follows ↔ r.input.Follows ∧ r.clipboard.Follows := by
  simp only [Follows, Slot.Follows, sendInput, sendClipboard, Prod.ext_iff, Registry.mk.injEq,
    and_true, true_and]

theorem follows_step (hr : r.Follows) (e : RegistryEvent) : (r.step e).Follows ↔ r.Allows e := by
  have : Inhabited InputEvent := ⟨.close 0⟩
  have : Inhabited Clipboard := ⟨⟨.host, 0, ""⟩⟩
  obtain ⟨hinput, hclipboard⟩ := follows_iff_slots.1 hr
  rw [follows_iff_slots]
  cases e with
  | input e => exact (and_iff_left hclipboard).trans (Slot.follows_step hinput e)
  | clipboard e => exact (and_iff_right hinput).trans (Slot.follows_step hclipboard e)

/-- **Both slots follow the newest running session all along a history, exactly when none of its
ends leaves another session behind**: registrations are dropped only while no session runs, and the
newest session stops only when no other one runs. -/
theorem follows_iff (events : List RegistryEvent) :
    (∀ past, past <+: events → (start.run past).Follows) ↔
      ∀ past e, past ++ [e] <+: events → (start.run past).Allows e := by
  have hstart : start.Follows := ⟨fun _ h => (nomatch h), fun _ h => (nomatch h)⟩
  exact Runs.forall_prefix_iff (I := Follows) hstart (fun _ e hr => follows_step hr e) events

/-- The viewer reconnects: the second session starts before the first one has noticed, and the end
of the first disconnects it. -/
theorem reconnect_disconnected :
    let events : List RegistryEvent :=
      [.input (.registered 1), .clipboard (.registered 1),
        .input (.registered 2), .clipboard (.registered 2),
        .input (.stopped 1), .clipboard (.stopped 1),
        .clipboard (.dropped 1), .input (.dropped 1)]
    (start.run events).input.receivers = [2] ∧ (start.run events).clipboard.receivers = [2] ∧
      (∀ event, ((start.run events).sendInput event).2 = false) ∧
      (∀ payload, ((start.run events).sendClipboard payload).2 = false) ∧
      ¬ ∀ past, past <+: events → (start.run past).Follows := by
  intro events
  have hinput : ∀ event, ((start.run events).sendInput event).2 = false := fun _ => rfl
  refine ⟨rfl, rfl, hinput, fun _ => rfl, fun hfollows => ?_⟩
  have hsent := (hfollows events (List.prefix_refl events)).1 2 rfl (.close 7)
  have hfalse := hinput (.close 7)
  rw [hsent] at hfalse
  cases hfalse

end Registry
end VBox
