import VBox.DataPlane.OneShot
import VBox.Proto.Framing
import VBox.Lib.Mealy

/-!
# DataPlane.Gate

The server's side of the QUIC data plane (`handle_connection` in
`crates/server/src/data_plane/quic_listener.rs`). The peer's first stream is read frame by frame: a
`Hello`, a `DataPlaneAuth`, and then either a `ViewRequest`, after which everything goes to the view
session, or one-shot messages.

A step is one `read_frame`, with what becomes of the write that answers it.

* `state_authorized`: the connection is past the token only if the first two frames were right.
* `gate`: so nothing happens in the guest otherwise, along every sequence of frames.
-/

namespace VBox

inductive GatePhase where
  | hello
  | auth
  | request
  | oneShot
  | viewing
  | closed
  deriving DecidableEq

/-- One read of the stream. -/
structure GateRead where
  /-- None when `read_frame` fails. -/
  frame : Option Message
  /-- What is written in answer can be written. -/
  writable : Bool
  /-- The view session, if there is one, still runs. -/
  viewing : Bool

/-- What the server does for the peer. -/
inductive GateEffect where
  | welcome (m : Welcome)
  | refused (e : ProtoError)
  | startView (req : ViewRequest)
  /-- A message for the running view session. -/
  | deliver (m : Message)
  | pong (seq : UInt64)
  | input (event : InputEvent)
  | clipboard (payload : Clipboard)
  | volume (change : VolumeChange)
  deriving DecidableEq

/-- The greeting and the refusal are for everybody. -/
def GateEffect.isGuarded : GateEffect → Bool
  | .welcome _ | .refused _ => false
  | _ => true

/-- Write a frame; a failed write ends the connection. -/
def gateWrite (writable : Bool) (next : GatePhase) (effect : GateEffect) :
    GatePhase × List GateEffect :=
  if writable then (next, [effect]) else (.closed, [])

/-- `handle_one_shot_message`. -/
def handleOneShot (writable : Bool) : Message → GatePhase × List GateEffect
  | .ping m => gateWrite writable .oneShot (.pong m.seq)
  | .goodbye _ => (.oneShot, [])
  | .inputEvent event => (.oneShot, [.input event])
  | .clipboard payload => (.oneShot, [.clipboard payload])
  | .volumeChange change => (.oneShot, [.volume change])
  | _ => (.closed, [])

/-- `handle_connection` after the prelude. `welcome` is the frame that answers the greeting. -/
def GatePhase.step (token : String) (welcome : Welcome) (phase : GatePhase) (read : GateRead) :
    GatePhase × List GateEffect :=
  match phase, read.frame with
  | .closed, _ => (.closed, [])
  | _, none => (.closed, [])
  | .hello, some (.hello _) => gateWrite read.writable .auth (.welcome welcome)
  | .hello, some _ => (.closed, [])
  | .auth, some (.dataPlaneAuth m) =>
    if m.token = token then (.request, [])
    else gateWrite read.writable .closed
      (.refused { code := 403, message := "invalid QUIC data-plane token" })
  | .auth, some _ => (.closed, [])
  | .request, some (.viewRequest req) => (.viewing, [.startView req])
  | .request, some m => handleOneShot read.writable m
  | .oneShot, some m => handleOneShot read.writable m
  | .viewing, some m => if read.viewing then (.viewing, [.deliver m]) else (.closed, [])

/-- The connection after some reads. Without a prelude it is closed at once. -/
def gateState (token : String) (welcome : Welcome) (opened : Bool) (reads : List GateRead) :
    GatePhase :=
  Mealy.state (GatePhase.step token welcome) (if opened then .hello else .closed) reads

/-- What the next read leads to. -/
def gateEffects (token : String) (welcome : Welcome) (opened : Bool) (past : List GateRead)
    (read : GateRead) : List GateEffect :=
  ((gateState token welcome opened past).step token welcome read).2

/-- The first frame was `Hello` and the second `DataPlaneAuth` with the token. -/
def Authorized (token : String) (reads : List GateRead) : Prop :=
  ∃ first second rest hello auth, reads = first :: second :: rest ∧
    first.frame = some (.hello hello) ∧ second.frame = some (.dataPlaneAuth auth) ∧
    auth.token = token

section Gate

variable {token : String} {welcome : Welcome}

/-- The one-shot handler ends the stream and acts on the messages as `handleOneShotMessage` says. -/
theorem handleOneShot_acts (m : Message) :
    ((handleOneShot true m).1 = .closed ↔ handleOneShotMessage m = none) ∧
      ((handleOneShot true m).2 ≠ [] ↔ handleOneShotMessage m = some true) := by
  cases m <;> simp [handleOneShot, handleOneShotMessage, gateWrite]

theorem step_closed (read : GateRead) :
    GatePhase.step token welcome .closed read = (.closed, []) := by
  simp [GatePhase.step]

theorem state_closed (reads : List GateRead) :
    Mealy.state (GatePhase.step token welcome) .closed reads = .closed :=
  Mealy.state_invariant (I := (· = GatePhase.closed)) rfl
    (fun s read hs => by rw [hs, step_closed]) reads

/-- The greeting leads on only with a `Hello`, and the second frame only with the token. -/
theorem step_hello (token : String) (welcome : Welcome) (read : GateRead) :
    (GatePhase.step token welcome .hello read).1 = .closed ∨
      ((GatePhase.step token welcome .hello read).1 = .auth ∧
        ∃ hello, read.frame = some (.hello hello)) := by
  obtain ⟨frame, writable, viewing⟩ := read
  cases frame with
  | none => exact .inl rfl
  | some m =>
    cases m with
    | hello hello =>
      cases writable with
      | true => exact .inr ⟨rfl, hello, rfl⟩
      | false => exact .inl rfl
    | _ => exact .inl rfl

theorem step_auth (token : String) (welcome : Welcome) (read : GateRead) :
    (GatePhase.step token welcome .auth read).1 = .closed ∨
      ∃ auth, read.frame = some (.dataPlaneAuth auth) ∧ auth.token = token := by
  obtain ⟨frame, writable, viewing⟩ := read
  cases frame with
  | none => exact .inl rfl
  | some m =>
    cases m with
    | dataPlaneAuth auth =>
      by_cases h : auth.token = token
      · exact .inr ⟨auth, rfl, h⟩
      · refine .inl ?_
        simp only [GatePhase.step, if_neg h]
        cases writable <;> rfl
    | _ => exact .inl rfl

/-- After two reads the connection is closed or authorized. -/
theorem state_authorized (token : String) (welcome : Welcome) (opened : Bool)
    (first second : GateRead) (rest : List GateRead) :
    gateState token welcome opened (first :: second :: rest) = .closed ∨
      Authorized token (first :: second :: rest) := by
  cases opened with
  | false => exact .inl (state_closed _)
  | true =>
    rcases step_hello token welcome first with hclosed | ⟨hauth, hello, hhello⟩
    · refine .inl ?_
      rw [gateState, if_pos rfl, Mealy.state, hclosed]
      exact state_closed _
    · rcases step_auth token welcome second with hclosed | ⟨auth, hframe, htoken⟩
      · refine .inl ?_
        rw [gateState, if_pos rfl, Mealy.state, Mealy.state, hauth, hclosed]
        exact state_closed _
      · exact .inr ⟨first, second, rest, hello, auth, rfl, hhello, hframe, htoken⟩

theorem eq_of_mem_gateWrite {writable : Bool} {next : GatePhase} {effect e : GateEffect}
    (h : e ∈ (gateWrite writable next effect).2) : e = effect := by
  rw [gateWrite] at h
  split at h
  · exact List.mem_singleton.1 h
  · cases h

/-- Before the token nothing is done for the peer but to greet or to refuse it. -/
theorem step_unguarded {phase : GatePhase} (h : phase = .hello ∨ phase = .auth) (read : GateRead) :
    ∀ e ∈ (phase.step token welcome read).2, e.isGuarded = false := by
  obtain ⟨frame, writable, viewing⟩ := read
  intro e he
  rcases h with rfl | rfl
  · cases frame with
    | none => cases he
    | some m =>
      cases m with
      | hello hello =>
        rw [eq_of_mem_gateWrite he]
        rfl
      | _ => cases he
  · cases frame with
    | none => cases he
    | some m =>
      cases m with
      | dataPlaneAuth auth =>
        simp only [GatePhase.step] at he
        split at he
        · cases he
        · rw [eq_of_mem_gateWrite he]
          rfl
      | _ => cases he

/-- What is done for the peer, at any read, needs the token. -/
theorem effects_guarded (opened : Bool) (past : List GateRead) (read : GateRead) {e : GateEffect}
    (he : e ∈ gateEffects token welcome opened past read) (hguarded : e.isGuarded = true) :
    Authorized token past := by
  rw [gateEffects] at he
  have hnot : ∀ phase, phase = .hello ∨ phase = .auth ∨ phase = .closed →
      gateState token welcome opened past ≠ phase := by
    rintro phase hphase heq
    rw [heq] at he
    rcases hphase with rfl | rfl | rfl
    · rw [step_unguarded (.inl rfl) read e he] at hguarded
      cases hguarded
    · rw [step_unguarded (.inr rfl) read e he] at hguarded
      cases hguarded
    · rw [step_closed] at he
      cases he
  rcases past with _ | ⟨first, _ | ⟨second, rest⟩⟩
  · cases opened with
    | false => exact absurd rfl (hnot .closed (.inr (.inr rfl)))
    | true => exact absurd rfl (hnot .hello (.inl rfl))
  · cases opened with
    | false => exact absurd (state_closed _) (hnot .closed (.inr (.inr rfl)))
    | true =>
      rcases step_hello token welcome first with hclosed | ⟨hauth, -⟩
      · exact absurd hclosed (hnot .closed (.inr (.inr rfl)))
      · exact absurd hauth (hnot .auth (.inr (.inl rfl)))
  · exact (state_authorized token welcome opened first second rest).resolve_left
      (hnot .closed (.inr (.inr rfl)))

/-- **Nothing is done for a peer that has not shown the token.** Along every sequence of reads,
finite or not, a view is started, a message is handed to it, input, clipboard and volume are
forwarded and a ping is answered only after a `Hello` and a `DataPlaneAuth` with the token; after
anything else in their place the connection is closed and stays so, and no read has any effect. -/
theorem gate (token : String) (welcome : Welcome) (opened : Bool) :
    (∀ past read e, e ∈ gateEffects token welcome opened past read → e.isGuarded = true →
      Authorized token past) ∧
    (∀ (reads : Nat → GateRead) (n : Nat) (e : GateEffect),
      e ∈ gateEffects token welcome opened ((List.range n).map reads) (reads n) →
      e.isGuarded = true →
      2 ≤ n ∧ (∃ hello, (reads 0).frame = some (.hello hello)) ∧
        ∃ auth, (reads 1).frame = some (.dataPlaneAuth auth) ∧ auth.token = token) ∧
    (∀ first second rest, ¬ Authorized token (first :: second :: rest) →
      gateState token welcome opened (first :: second :: rest) = .closed ∧
        ∀ read, gateEffects token welcome opened (first :: second :: rest) read = []) := by
  refine ⟨fun past read e => effects_guarded opened past read, fun reads n e he hguarded => ?_,
    fun first second rest hnot => ?_⟩
  · obtain ⟨first, second, rest, hello, auth, heq, hhello, hauth, htoken⟩ :=
      effects_guarded opened _ _ he hguarded
    have hlength := congrArg List.length heq
    simp only [List.length_map, List.length_range, List.length_cons] at hlength
    have hfirst := congrArg (·[0]?) heq
    have hsecond := congrArg (·[1]?) heq
    simp only [List.getElem?_map, List.getElem?_range (show 0 < n by omega),
      List.getElem?_range (show 1 < n by omega), Option.map_some, List.getElem?_cons_zero,
      List.getElem?_cons_succ, Option.some.injEq] at hfirst hsecond
    subst hfirst hsecond
    exact ⟨by omega, ⟨hello, hhello⟩, auth, hauth, htoken⟩
  · have hclosed := (state_authorized token welcome opened first second rest).resolve_right hnot
    refine ⟨hclosed, fun read => ?_⟩
    rw [gateEffects, hclosed, step_closed]

end Gate
end VBox
