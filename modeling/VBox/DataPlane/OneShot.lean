import Mathlib.Data.List.Nodup
import Mathlib.Data.List.TakeWhile
import VBox.Proto.Message

/-!
# DataPlane.OneShot

Commands that the client sends on a connection of their own (`send_command_messages` in
`crates/client/src/net.rs`), first over QUIC and then over TCP, and how the server handles them
(`handle_one_shot_stream` in `crates/server/src/data_plane/quic_listener.rs`, `handle` in `main.rs`).

A frame is a message with its place in the command, so that handling one twice can be told from
handling two equal ones.

* `handled_once_iff`: when a command that was reported as sent was handled exactly once.
-/

namespace VBox

abbrev Frame := Message × Nat

/-- The messages that a server acts on outside a view, over QUIC or TCP. -/
def Message.isOneShot : Message → Bool
  | .ping _ | .inputEvent _ | .clipboard _ | .volumeChange _ => true
  | _ => false

/-- What the client sends as one command. -/
structure Command where
  messages : List Message
  oneShot : ∀ m ∈ messages, m.isOneShot

/-- The command of `send_input_command`. -/
def Command.input (events : List InputEvent) : Command where
  messages := events.map .inputEvent
  oneShot m hm := by
    obtain ⟨event, -, rfl⟩ := List.mem_map.1 hm
    rfl

/-- The command of `send_volume_command`. -/
def Command.volume (change : VolumeChange) : Command where
  messages := [.volumeChange change]
  oneShot m hm := by
    rw [List.mem_singleton.1 hm]
    rfl

def Command.frames (command : Command) : List Frame := command.messages.zipIdx

def Command.goodbye (command : Command) (reason : String) : Frame :=
  (.goodbye { reason }, command.messages.length)

/-! ## A connection -/

/-- What becomes of one connection: whether it is opened and greeted, what its writes return one after
the other, whether its end can be marked, and how many of the frames that were written the server
reads before it loses the connection. -/
structure Connection where
  opened : Bool
  writes : List Bool
  finishes : Bool
  received : Nat

/-- Writes frames up to the first error, with whether there was none, the frames that were written and
what later writes will return. -/
def writeFrames : List Bool → List Frame → Bool × List Frame × List Bool
  | writes, [] => (true, [], writes)
  | true :: writes, frame :: frames =>
    let (ok, written, rest) := writeFrames writes frames
    (ok, frame :: written, rest)
  | writes, _ :: _ => (false, [], writes.tail)

/-! ## The server -/

/-- Whether the server acts on a message of a one-shot stream. There is an error for a message that
does not belong there, and the stream ends with it. -/
def handleOneShotMessage : Message → Option Bool
  | .ping _ => some true
  | .goodbye _ => some false
  | .inputEvent _ => some true
  | .clipboard _ => some true
  | .volumeChange _ => some true
  | _ => none

/-- The frames that were acted on. -/
def handleOneShotStream : List Frame → List Frame
  | [] => []
  | frame :: frames =>
    match handleOneShotMessage frame.1 with
    | none => []
    | some acted => (if acted then [frame] else []) ++ handleOneShotStream frames

/-- The loop of `handle`, by `decide_handle_action`. -/
def handleTcp : List Frame → List Frame
  | [] => []
  | frame :: frames =>
    match frame.1 with
    | .ping _ | .inputEvent _ | .clipboard _ | .volumeChange _ => frame :: handleTcp frames
    | .goodbye _ => []
    -- the connection becomes a view
    | .viewRequest _ => []
    | _ => handleTcp frames

/-! ## The client -/

inductive DataPlaneMode where
  | tcpOnly
  | quicOnly
  | auto
  deriving DecidableEq

structure CommandTransport where
  mode : DataPlaneMode
  quicAddr : Option SocketAddr
  quicToken : Option String
  quicCertSha256 : Option String

/-- With whether it succeeds, and what the server handled. That the stream is idle is waited for, but
not asked. -/
def sendMessages (quic : Connection) (command : Command) (reason : String) : Bool × List Frame :=
  if quic.opened then
    let (ok, written, _) := writeFrames quic.writes (command.frames ++ [command.goodbye reason])
    (ok && quic.finishes, handleOneShotStream (written.take quic.received))
  else (false, [])

/-- Whether the server is told goodbye does not matter. -/
def sendTcpCommandMessages (tcp : Connection) (command : Command) (reason : String) :
    Bool × List Frame :=
  if tcp.opened then
    let (ok, written, rest) := writeFrames tcp.writes command.frames
    let (_, farewell, _) := writeFrames rest [command.goodbye reason]
    (ok, handleTcp ((if ok then written ++ farewell else written).take tcp.received))
  else (false, [])

/-- The server handles the frames of the QUIC connection before those of the TCP connection that takes
its place. -/
def sendCommandMessages (transport : CommandTransport) (quic tcp : Connection) (command : Command)
    (reason : String) : Bool × List Frame :=
  match transport.mode with
  | .tcpOnly => sendTcpCommandMessages tcp command reason
  | .quicOnly | .auto =>
    match transport.quicAddr, transport.quicToken with
    | some _, some _ =>
      let (ok, handled) := sendMessages quic command reason
      if ok then (true, handled)
      else if transport.mode = .auto then
        let (ok, again) := sendTcpCommandMessages tcp command reason
        (ok, handled ++ again)
      else (false, handled)
    | _, _ =>
      if transport.mode = .auto then sendTcpCommandMessages tcp command reason else (false, [])

/-! ## What the server handled -/

/-- How many writes succeed before the first that does not. -/
def Connection.good (c : Connection) : Nat := (c.writes.takeWhile id).length

/-- How many messages of a command of `n` messages the server acts on. -/
def Connection.acted (c : Connection) (n : Nat) : Nat :=
  if c.opened then min c.received (min c.good n) else 0

theorem writeFrames_written (writes : List Bool) (frames : List Frame) :
    (writeFrames writes frames).2.1 = frames.take (writes.takeWhile id).length := by
  induction frames generalizing writes with
  | nil => simp [writeFrames]
  | cons frame frames ih =>
    cases writes with
    | nil => simp [writeFrames]
    | cons ok writes => cases ok <;> simp [writeFrames, ih]

theorem writeFrames_ok (writes : List Bool) (frames : List Frame) :
    (writeFrames writes frames).1 = true ↔ frames.length ≤ (writes.takeWhile id).length := by
  induction frames generalizing writes with
  | nil => simp [writeFrames]
  | cons frame frames ih =>
    cases writes with
    | nil => simp [writeFrames]
    | cons ok writes => cases ok <;> simp [writeFrames, ih]

theorem handleOneShotMessage_of_isOneShot {m : Message} (h : m.isOneShot) :
    handleOneShotMessage m = some true := by
  cases m <;> first | rfl | cases h

theorem handleTcp_cons {frame : Frame} (h : frame.1.isOneShot) (frames : List Frame) :
    handleTcp (frame :: frames) = frame :: handleTcp frames := by
  obtain ⟨m, i⟩ := frame
  cases m <;> first | rfl | cases h

theorem handleOneShotStream_append {frames : List Frame} (h : ∀ f ∈ frames, f.1.isOneShot)
    (rest : List Frame) :
    handleOneShotStream (frames ++ rest) = frames ++ handleOneShotStream rest := by
  induction frames with
  | nil => rfl
  | cons frame frames ih =>
    have hacted := handleOneShotMessage_of_isOneShot (h frame List.mem_cons_self)
    simp [handleOneShotStream, hacted, ih fun f hf => h f (List.mem_cons_of_mem _ hf)]

theorem handleTcp_append {frames : List Frame} (h : ∀ f ∈ frames, f.1.isOneShot)
    (rest : List Frame) : handleTcp (frames ++ rest) = frames ++ handleTcp rest := by
  induction frames with
  | nil => rfl
  | cons frame frames ih =>
    rw [List.cons_append, handleTcp_cons (h frame List.mem_cons_self),
      ih fun f hf => h f (List.mem_cons_of_mem _ hf), List.cons_append]

variable (command : Command) (reason : String) (c : Connection)

theorem Command.frames_length : command.frames.length = command.messages.length :=
  List.length_zipIdx

theorem Command.frames_oneShot : ∀ f ∈ command.frames, f.1.isOneShot := by
  intro f hf
  exact command.oneShot f.1 (List.fst_mem_of_mem_zipIdx hf)

theorem Command.frames_nodup : command.frames.Nodup := by
  refine List.Nodup.of_map Prod.snd ?_
  rw [Command.frames, List.zipIdx_map_snd]
  exact List.nodup_range'

/-- Of the frames of a command and a farewell, the server acts on the command's. -/
theorem take_farewell {handle : List Frame → List Frame}
    (happend : ∀ frames : List Frame, (∀ f ∈ frames, f.1.isOneShot) → ∀ rest,
      handle (frames ++ rest) = frames ++ handle rest)
    {farewell : List Frame} (hbye : ∀ k, handle (farewell.take k) = []) (k : Nat) :
    handle ((command.frames ++ farewell).take k) = command.frames.take k := by
  rw [List.take_append, happend _ fun f hf => command.frames_oneShot f (List.mem_of_mem_take hf),
    hbye, List.append_nil]

theorem sendMessages_handled :
    (sendMessages c command reason).2 = command.frames.take (c.acted command.messages.length) := by
  unfold sendMessages Connection.acted
  split
  · have hbye : ∀ k, handleOneShotStream ([command.goodbye reason].take k) = [] := by
      intro k
      cases k <;> simp [handleOneShotStream, handleOneShotMessage, Command.goodbye]
    simp only [writeFrames_written, List.take_take]
    rw [take_farewell command (fun _ => handleOneShotStream_append) hbye, List.take_eq_take_min,
      Command.frames_length, min_assoc, Connection.good]
  · simp

theorem sendMessages_ok :
    (sendMessages c command reason).1 = true ↔
      c.opened = true ∧ command.messages.length + 1 ≤ c.good ∧ c.finishes = true := by
  unfold sendMessages
  split
  · rename_i hopened
    simp [writeFrames_ok, hopened, Connection.good, Command.frames_length]
  · rename_i hopened
    simp [hopened]

theorem sendTcpCommandMessages_ok :
    (sendTcpCommandMessages c command reason).1 = true ↔
      c.opened = true ∧ command.messages.length ≤ c.good := by
  unfold sendTcpCommandMessages
  split
  · rename_i hopened
    simp [writeFrames_ok, hopened, Connection.good, Command.frames_length]
  · rename_i hopened
    simp [hopened]

theorem sendTcpCommandMessages_handled (hok : (sendTcpCommandMessages c command reason).1 = true) :
    (sendTcpCommandMessages c command reason).2 =
      command.frames.take (c.acted command.messages.length) := by
  obtain ⟨hopened, hgood⟩ := (sendTcpCommandMessages_ok command reason c).1 hok
  have hwritten : (writeFrames c.writes command.frames).2.1 = command.frames := by
    rw [writeFrames_written]
    exact List.take_of_length_le (by rwa [Command.frames_length])
  have hall : (writeFrames c.writes command.frames).1 = true := by
    rw [writeFrames_ok, Command.frames_length]
    exact hgood
  have hbye : ∀ writes k, handleTcp
      ((writeFrames writes [command.goodbye reason]).2.1.take k) = [] := by
    intro writes k
    rw [writeFrames_written, List.take_take]
    cases min k _ <;> rfl
  simp only [sendTcpCommandMessages, hopened, if_true, hall, hwritten]
  rw [take_farewell command (fun _ => handleTcp_append) (hbye _), Connection.acted, if_pos hopened,
    List.take_eq_take_min, Command.frames_length, min_eq_right hgood]

/-! ## Exactly once -/

/-- A beginning of a list and another beginning make up the list only if one of them is all of it. -/
theorem take_append_take_eq_iff {α : Type} {l : List α} (hl : l.Nodup) {j k : Nat}
    (hj : j ≤ l.length) (hk : k ≤ l.length) :
    l.take j ++ l.take k = l ↔ (j = 0 ∧ k = l.length) ∨ (j = l.length ∧ k = 0) := by
  constructor
  · intro h
    have hlength : j + k = l.length := by
      have := congrArg List.length h
      simpa [hj, hk] using this
    obtain rfl | hj0 := Nat.eq_zero_or_pos j
    · exact .inl ⟨rfl, by omega⟩
    obtain rfl | hk0 := Nat.eq_zero_or_pos k
    · exact .inr ⟨by omega, rfl⟩
    -- the first element would come twice
    cases l with
    | nil => simp at hj; omega
    | cons a l =>
      rw [← h] at hl
      have hdisjoint := (List.nodup_append'.1 hl).2.2
      have hmem : ∀ n, 0 < n → a ∈ (a :: l).take n := by
        intro n hn
        cases n with
        | zero => cases hn
        | succ n => simp
      exact absurd (hmem k hk0) (hdisjoint (hmem j hj0))
  · rintro (⟨rfl, rfl⟩ | ⟨rfl, rfl⟩) <;> simp

/-- Whether the client tries QUIC. -/
def CommandTransport.hasQuic (transport : CommandTransport) : Bool :=
  transport.quicAddr.isSome && transport.quicToken.isSome

/-- Whether sending a command of `n` messages over QUIC succeeds. -/
def Connection.succeeds (c : Connection) (n : Nat) : Prop :=
  c.opened = true ∧ n + 1 ≤ c.good ∧ c.finishes = true

instance (c : Connection) (n : Nat) : Decidable (c.succeeds n) :=
  inferInstanceAs (Decidable (_ ∧ _ ∧ _))

/-- The server has all of a command, and of no message more than one frame. -/
def DeliveredOnce (transport : CommandTransport) (quic tcp : Connection) (n : Nat) : Prop :=
  if transport.hasQuic then
    if quic.succeeds n then n ≤ quic.received
    else (quic.acted n = 0 ∧ n ≤ tcp.received) ∨ (quic.acted n = n ∧ tcp.acted n = 0)
  else n ≤ tcp.received

theorem Connection.acted_le (n : Nat) : c.acted n ≤ n := by
  unfold Connection.acted
  split <;> omega

/-- How the automatic mode chooses. -/
theorem sendCommandMessages_auto {transport : CommandTransport} (hauto : transport.mode = .auto)
    (quic tcp : Connection) :
    sendCommandMessages transport quic tcp command reason =
      if transport.hasQuic then
        if quic.succeeds command.messages.length then (true, (sendMessages quic command reason).2)
        else ((sendTcpCommandMessages tcp command reason).1,
          (sendMessages quic command reason).2 ++ (sendTcpCommandMessages tcp command reason).2)
      else sendTcpCommandMessages tcp command reason := by
  have hsucceeds : quic.succeeds command.messages.length ↔
      (sendMessages quic command reason).1 = true := (sendMessages_ok command reason quic).symm
  simp only [hsucceeds]
  unfold sendCommandMessages CommandTransport.hasQuic
  cases transport.quicAddr <;> cases transport.quicToken <;> simp [hauto]

variable {c} in
/-- Over a connection that takes all writes, the server has all of the command if it reads that far. -/
theorem Connection.acted_eq_iff {n : Nat} (hopened : c.opened = true) (hgood : n ≤ c.good) :
    c.acted n = n ↔ n ≤ c.received := by
  rw [Connection.acted, if_pos hopened, min_eq_right hgood, min_eq_right_iff]

/-- **One-shot commands.** When the client reports success, the server handled each message exactly
once, in order, exactly if QUIC succeeded and the server read the whole command, or QUIC failed before
the server acted on a message and it read the whole command from TCP. (The last case is the other way
round: all of it over QUIC and nothing over TCP.) -/
theorem handled_once_iff {transport : CommandTransport} (hauto : transport.mode = .auto)
    {quic tcp : Connection} {command : Command} {reason : String}
    (hok : (sendCommandMessages transport quic tcp command reason).1 = true) :
    (sendCommandMessages transport quic tcp command reason).2 = command.frames ↔
      DeliveredOnce transport quic tcp command.messages.length := by
  have htake : ∀ c : Connection, command.frames.take (c.acted command.messages.length) =
      command.frames ↔ c.acted command.messages.length = command.messages.length := by
    intro c
    rw [List.take_eq_self_iff, Command.frames_length]
    exact (c.acted_le _).ge_iff_eq
  rw [sendCommandMessages_auto command reason hauto] at hok ⊢
  unfold DeliveredOnce
  cases hhas : transport.hasQuic with
  | false =>
    simp only [hhas, Bool.false_eq_true, if_false] at hok ⊢
    obtain ⟨hopened, hgood⟩ := (sendTcpCommandMessages_ok command reason tcp).1 hok
    rw [sendTcpCommandMessages_handled command reason tcp hok, htake,
      Connection.acted_eq_iff hopened hgood]
  | true =>
    by_cases hquic : quic.succeeds command.messages.length
    · simp only [if_true, hquic]
      rw [sendMessages_handled, htake,
        Connection.acted_eq_iff hquic.1 (Nat.le_of_succ_le hquic.2.1)]
    · simp only [hhas, if_true, hquic, if_false] at hok ⊢
      obtain ⟨hopened, hgood⟩ := (sendTcpCommandMessages_ok command reason tcp).1 hok
      rw [sendMessages_handled, sendTcpCommandMessages_handled command reason tcp hok,
        take_append_take_eq_iff command.frames_nodup
          (by rw [Command.frames_length]; exact quic.acted_le _)
          (by rw [Command.frames_length]; exact tcp.acted_le _),
        Command.frames_length, Connection.acted_eq_iff hopened hgood]

/-- A client that may use QUIC. -/
def autoTransport : CommandTransport :=
  { mode := .auto, quicAddr := some (.v4 ⟨[127, 0, 0, 1], rfl⟩ 7020), quicToken := some "token"
    quicCertSha256 := none }

/-- A connection on which everything works. -/
def goodConnection : Connection :=
  { opened := true, writes := [true, true, true], finishes := true, received := 3 }

/-- Keys are typed as a press and a release. -/
def typeKey : Command := .input [.key 1 30 .pressed, .key 1 30 .released]

theorem handled_once_iff_refused :
    (sendCommandMessages autoTransport { goodConnection with opened := false } goodConnection typeKey
      "input command complete").1 = true ∧
    (sendCommandMessages autoTransport { goodConnection with opened := false } goodConnection typeKey
      "input command complete").2 = typeKey.frames := by
  have hok : (sendCommandMessages autoTransport { goodConnection with opened := false } goodConnection
      typeKey "input command complete").1 = true := by decide
  exact ⟨hok, (handled_once_iff rfl hok).2 (by unfold DeliveredOnce; decide)⟩

/-- The QUIC stream breaks after the press, which the server has handled: it handles the press
again. -/
theorem press_handled_twice :
    ¬ ∀ (quic tcp : Connection) (command : Command) (reason : String),
      (sendCommandMessages autoTransport quic tcp command reason).1 = true →
      (sendCommandMessages autoTransport quic tcp command reason).2 = command.frames := by
  intro h
  have htwice := h { goodConnection with writes := [true, false] } goodConnection typeKey
    "input command complete" (by decide)
  revert htwice
  decide

end VBox
