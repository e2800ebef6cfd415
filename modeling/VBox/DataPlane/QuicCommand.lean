import VBox.DataPlane.Gate
import VBox.Lib.Duplex
import VBox.Proto.Prelude

/-!
# DataPlane.QuicCommand

The client's side of the first stream of a QUIC connection (`open_authenticated_stream` and what comes
after it in `send_messages_async`, `ping_async` and `view_network_async` of
`crates/client/src/data_plane/quic.rs`) and the server's side (`handle_connection` in
`crates/server/src/data_plane/quic_listener.rs`), as the parties of a connection. What the server does
with a frame is `GatePhase.step`.

Of a view, this is the loop that reads the first stream. The viewer has nothing to send, so the task that
writes what it sends waits.

* `command_ends`: whatever the delays, the server handles what the client asks for, in order, if the
  token is right, and nothing else; and a viewer is given what the server writes to it, in order.
* `command_prefix`: whatever fails, it handles a beginning of that.
-/

namespace VBox

open ByteStream (Source Read)
open ByteCodec (Bytes)
open Duplex

/-! ## The client -/

inductive QuicError where
  | io
  | frame (e : Error)
  | msg (text : String)
  deriving DecidableEq

/-- What the client has to do after its last frame. -/
inductive QuicAfter where
  | returns
  | readPong
  | readView
  deriving DecidableEq

inductive QuicState where
  | writePrelude
  | readPrelude
  | writeHello
  | readWelcome
  | write (msg : Message) (rest : List Message) (after : QuicAfter)
  | readPong
  /-- The loop of a view, with what the viewer has been given. -/
  | readView (viewed : List Message)
  | returned (result : Except QuicError Unit) (viewed : List Message := [])

/-- What the client opens the stream for. -/
inductive QuicTask where
  | send (command : Command) (reason : String)
  | ping (stampNs : UInt64)
  /-- `viewer` says whether the viewer is still there for the message that comes after some. -/
  | view (socketName : String) (width height : UInt32) (viewer : List Message → Bool)

structure QuicClient where
  clientName : String
  token : String
  task : QuicTask

def QuicState.writing (after : QuicAfter) : List Message → QuicState
  | [] =>
    match after with
    | .returns => .returned (.ok ())
    | .readPong => .readPong
    | .readView => .readView []
  | msg :: rest => .write msg rest after

def viewRequest (socketName : String) (width height : UInt32) : ViewRequest :=
  { socketName, width := max width 1, height := max height 1 }

/-- The frames after the token. -/
def QuicTask.messages : QuicTask → List Message
  | .send command reason => command.messages ++ [.goodbye { reason }]
  | .ping stampNs => [.ping { seq := 1, stampNs }]
  | .view socketName width height _ => [.viewRequest (viewRequest socketName width height)]

def QuicTask.after : QuicTask → QuicAfter
  | .send _ _ => .returns
  | .ping _ => .readPong
  | .view _ _ _ _ => .readView

/-- `proxy.send_event` succeeds. Only a view has a viewer. -/
def QuicTask.takes (viewed : List Message) : QuicTask → Bool
  | .view _ _ _ viewer => viewer viewed
  | _ => false

namespace QuicClient

def onPrelude : Except Error UInt16 → QuicState
  | .ok _ => .writeHello
  | .error e => .returned (.error (.frame e))

def onWelcome (c : QuicClient) : Except Error Message → QuicState
  | .ok (.welcome w) =>
    if w.protocolVersion ≠ protocolVersion then
      .returned (.error (.msg
        s!"QUIC protocol version mismatch: server={w.protocolVersion}, client={protocolVersion}"))
    else .writing c.task.after (.dataPlaneAuth { token := c.token } :: c.task.messages)
  | .ok (.goodbye g) => .returned (.error (.msg s!"QUIC server refused: {g.reason}"))
  | .ok (.error e) => .returned (.error (.msg s!"QUIC server error {e.code}: {e.message}"))
  | .ok other => .returned (.error (.msg s!"expected QUIC Welcome, got {other.kind.debug}"))
  | .error e => .returned (.error (.frame e))

def onPong : Except Error Message → QuicState
  | .ok (.pong pong) =>
    if pong.seq = 1 then .writing .returns [.goodbye { reason := "ping complete" }]
    else .returned (.error (.msg s!"pong seq mismatch: got {pong.seq}, expected 1"))
  | .ok other => .returned (.error (.msg s!"unexpected QUIC ping reply: {other.kind.debug}"))
  | .error e => .returned (.error (.frame e))

def onView (c : QuicClient) (viewed : List Message) : Except Error Message → QuicState
  | .ok msg =>
    if c.task.takes viewed then .readView (viewed ++ [msg]) else .returned (.ok ()) viewed
  | .error e => .returned (.error (.frame e)) viewed

def lost : Error := .io "reading QUIC frame length" .unexpectedEof

variable (pc : Postcard Message)

/-- A frame that cannot be encoded is not written. -/
def writeFrame (msg : Message) (next : QuicState) : Action QuicState :=
  match encodeFrame pc msg with
  | .ok frame => .send frame next (.returned (.error .io))
  | .error e => .send [] (.returned (.error (.frame e))) (.returned (.error (.frame e)))

def act (c : QuicClient) : QuicState → Action QuicState
  | .writePrelude => .send prelude .readPrelude (.returned (.error .io))
  | .readPrelude => .ofRead (Client.readPrelude Source.bytes) steady_readPreludeWith onPrelude lost
  | .writeHello =>
    writeFrame pc (.hello { protocolVersion, clientName := c.clientName }) .readWelcome
  | .readWelcome =>
    .ofRead (Client.readFrame pc Source.bytes) (steady_clientReadFrame pc) c.onWelcome lost
  | .write msg rest after => writeFrame pc msg (.writing after rest)
  | .readPong => .ofRead (Client.readFrame pc Source.bytes) (steady_clientReadFrame pc) onPong lost
  | .readView viewed =>
    .ofRead (Client.readFrame pc Source.bytes) (steady_clientReadFrame pc) (c.onView viewed) lost
  | .returned _ _ => .halt

variable {pc} {c : QuicClient}

theorem writeFrame_send {msg : Message} {next s failed : QuicState} {bs : Bytes}
    (h : writeFrame pc msg next = .send bs s failed) : ∃ e, failed = .returned (.error e) := by
  rw [writeFrame] at h
  split at h <;> cases h <;> exact ⟨_, rfl⟩

theorem writeFrame_recv {msg : Message} {next : QuicState} {reader : Reader QuicState}
    {failed : Bytes → QuicState} (h : writeFrame pc msg next = .recv reader failed) : False := by
  rw [writeFrame] at h
  split at h <;> cases h

theorem act_send {s next failed : QuicState} {bs : Bytes} (h : c.act pc s = .send bs next failed) :
    ∃ e, failed = .returned (.error e) := by
  cases s with
  | writePrelude =>
    cases h
    exact ⟨_, rfl⟩
  | writeHello => exact writeFrame_send h
  | write => exact writeFrame_send h
  | readPrelude => cases h
  | readWelcome => cases h
  | readPong => cases h
  | readView => cases h
  | returned => cases h

/-- What cannot be read is returned. -/
theorem returned_of_ofRead {α : Type} {x : Read Bytes Error α} {hsteady : Read.Steady Error.isIo x}
    {k : Except Error α → QuicState} {viewed : List Message} {reader : Reader QuicState}
    {failed : Bytes → QuicState} (hk : ∀ e, k (.error e) = .returned (.error (.frame e)) viewed)
    (h : Action.ofRead x hsteady k lost = .recv reader failed) (bs : Bytes) :
    ∃ e viewed, failed bs = .returned (.error (.frame e)) viewed := by
  obtain ⟨e, he⟩ := Action.eq_of_ofRead h bs
  exact ⟨e, viewed, he.trans (hk e)⟩

theorem act_recv {s : QuicState} {reader : Reader QuicState} {failed : Bytes → QuicState}
    (h : c.act pc s = .recv reader failed) (bs : Bytes) :
    ∃ e viewed, failed bs = .returned (.error (.frame e)) viewed := by
  cases s with
  | readPrelude => exact returned_of_ofRead (fun _ => rfl) h bs
  | readWelcome => exact returned_of_ofRead (fun _ => rfl) h bs
  | readPong => exact returned_of_ofRead (fun _ => rfl) h bs
  | readView => exact returned_of_ofRead (fun _ => rfl) h bs
  | writePrelude => cases h
  | writeHello => exact (writeFrame_recv h).elim
  | write => exact (writeFrame_recv h).elim
  | returned => cases h

variable (pc c) in
def party : Party QuicState where
  act := c.act pc
  failed_send := by
    intro s bs next failed h
    obtain ⟨e, rfl⟩ := act_send h
    rfl
  failed_recv := by
    intro s reader failed h bs
    obtain ⟨e, viewed, he⟩ := act_recv h bs
    rw [he]
    rfl

theorem party_write {msg : Message} {rest : List Message} {after : QuicAfter} {frame : Bytes}
    (h : encodeFrame pc msg = .ok frame) : (c.party pc).act (.write msg rest after) =
      .send frame (.writing after rest) (.returned (.error .io)) := by
  show writeFrame pc msg _ = _
  rw [writeFrame, h]

end QuicClient

/-! ## The server -/

inductive GateStage where
  | writePrelude
  | readPrelude
  | read
  | answer (frame : Bytes) (effect : GateEffect)
  /-- A view runs, and has this to write to the stream before it ends. -/
  | view (rest : List Message)
  | closed
  deriving DecidableEq

/-- The server's side, with what it has done for the peer. -/
structure GateSide where
  stage : GateStage
  phase : GatePhase
  handled : List GateEffect

/-- What is written to the peer, with the time. -/
def GateEffect.reply (now : UInt64) : GateEffect → Option Message
  | .welcome w => some (.welcome w)
  | .refused e => some (.error e)
  | .pong seq => some (.pong { seq, stampNs := now })
  | _ => none

/-- A view is what the rest of the connection is for. -/
def GateEffect.stage (session : ViewRequest → List Message) : GateEffect → GateStage
  | .startView req => .view (session req)
  | _ => .read

namespace GateSide

def start : GateSide := { stage := .writePrelude, phase := .hello, handled := [] }

def onPrelude (v : GateSide) : Except Error UInt16 → GateSide
  | .ok _ => { v with stage := .read }
  | .error _ => { v with stage := .closed }

-- `session` is what a view writes to this stream, from its start to its end
variable (pc : Postcard Message) (token : String) (welcome : Welcome) (now : List GateEffect → UInt64)
  (session : ViewRequest → List Message)

def onFrame (v : GateSide) : Except Error Message → GateSide
  | .ok m =>
    match v.phase.step token welcome { frame := some m, writable := true, viewing := true } with
    | (phase, []) => { v with phase }
    | (phase, effect :: _) =>
      match effect.reply (now v.handled) with
      | some reply =>
        match encodeFrame pc reply with
        | .ok frame => { v with phase, stage := .answer frame effect }
        | .error _ => { v with phase, stage := .closed }
      | none => { stage := effect.stage session, phase, handled := v.handled ++ [effect] }
  | .error _ => { v with stage := .closed }

def act (v : GateSide) : Action GateSide :=
  match v.stage with
  | .writePrelude => .send prelude { v with stage := .readPrelude } { v with stage := .closed }
  | .readPrelude =>
    .ofRead (Server.readPrelude Source.bytes) steady_readPreludeWith v.onPrelude QuicClient.lost
  | .read =>
    if v.phase = .closed then .halt
    else .ofRead (Server.readFrame pc Source.bytes) (steady_serverReadFrame pc)
      (v.onFrame pc token welcome now session) QuicClient.lost
  | .answer frame effect =>
    .send frame { v with stage := .read, handled := v.handled ++ [effect] } { v with stage := .closed }
  | .view [] => .halt
  | .view (msg :: rest) =>
    -- a frame that cannot be written ends the view
    match encodeFrame pc msg with
    | .ok frame => .send frame { v with stage := .view rest } { v with stage := .closed }
    | .error _ => .send [] { v with stage := .closed } { v with stage := .closed }
  | .closed => .halt

variable {pc token welcome now session} {v : GateSide}

theorem act_send {next failed : GateSide} {bs : Bytes}
    (h : v.act pc token welcome now session = .send bs next failed) :
    failed = { v with stage := .closed } := by
  rw [act] at h
  split at h
  · cases h
    rfl
  · cases h
  · split at h <;> cases h
  · cases h
    rfl
  · cases h
  · split at h <;> cases h <;> rfl
  · cases h

theorem act_recv {reader : Reader GateSide} {failed : Bytes → GateSide}
    (h : v.act pc token welcome now session = .recv reader failed) (bs : Bytes) :
    failed bs = { v with stage := .closed } := by
  rw [act] at h
  split at h
  · cases h
  · obtain ⟨e, he⟩ := Action.eq_of_ofRead h bs
    exact he
  · split at h
    · cases h
    · obtain ⟨e, he⟩ := Action.eq_of_ofRead h bs
      exact he
  · cases h
  · cases h
  · split at h <;> cases h
  · cases h

variable (pc token welcome now session) in
/-- `handle_connection` -/
def party : Party GateSide where
  act := act pc token welcome now session
  failed_send := by
    intro v bs next failed h
    rw [act_send h]
    rfl
  failed_recv := by
    intro v reader failed h bs
    rw [act_recv h bs]
    rfl

end GateSide

/-! ## The conversation -/

section Conversation

variable {pc : Postcard Message} {token : String} {welcome : Welcome} {now : List GateEffect → UInt64}
  {session : ViewRequest → List Message} {c : QuicClient} {full : List GateEffect}

def refusal : ProtoError := { code := 403, message := "invalid QUIC data-plane token" }

/-- What the server does for the client with the right token. -/
def QuicTask.effects : QuicTask → List GateEffect
  | .send command _ => command.messages.flatMap fun m => (handleOneShot true m).2
  | .ping _ => [.pong 1]
  | .view socketName width height _ => [.startView (viewRequest socketName width height)]

def QuicClient.expected (c : QuicClient) (token : String) (welcome : Welcome) : List GateEffect :=
  .welcome welcome :: if c.token = token then c.task.effects else [.refused refusal]

/-- A viewer that is given messages, one after the other, up to the end of the stream. -/
def viewEnding (viewer : List Message → Bool) (viewed : List Message) : List Message → QuicState
  | [] => .returned (.error (.frame QuicClient.lost)) viewed
  | msg :: rest =>
    if viewer viewed then viewEnding viewer (viewed ++ [msg]) rest else .returned (.ok ()) viewed

/-- What a client comes to. A command waits for no answer, a ping for one, and a view gives its viewer
everything. -/
def QuicClient.ending (c : QuicClient) (token : String) (session : ViewRequest → List Message) :
    QuicState :=
  match c.task with
  | .send _ _ => .returned (.ok ())
  | .ping _ =>
    if c.token = token then .returned (.ok ())
    else .returned (.error (.msg "unexpected QUIC ping reply: Error"))
  | .view socketName width height viewer =>
    viewEnding viewer []
      (if c.token = token then session (viewRequest socketName width height) else [.error refusal])

/-- A run on the way of which the server has done a part of `full`. -/
def QuicRun (c : QuicClient) (pc : Postcard Message) (token : String) (welcome : Welcome)
    (now : List GateEffect → UInt64) (session : ViewRequest → List Message) (full : List GateEffect)
    (a b : Talk QuicState GateSide) : Prop :=
  ∃ us vs, Reach (c.party pc) (GateSide.party pc token welcome now session) us vs a b ∧
    ∀ v ∈ vs, v.handled <+: full

variable {a b d : Talk QuicState GateSide}

theorem QuicRun.trans (h : QuicRun c pc token welcome now session full a b)
    (h' : QuicRun c pc token welcome now session full b d) :
    QuicRun c pc token welcome now session full a d := by
  obtain ⟨us, vs, hreach, hvs⟩ := h
  obtain ⟨us', vs', hreach', hvs'⟩ := h'
  exact ⟨us ++ us', vs ++ vs', hreach.trans hreach', List.forall_mem_append.2 ⟨hvs, hvs'⟩⟩

theorem QuicRun.of_reach {us : List QuicState} {vs : List GateSide}
    (h : Reach (c.party pc) (GateSide.party pc token welcome now session) us vs a b)
    (hvs : ∀ v ∈ vs, v.handled <+: full) : QuicRun c pc token welcome now session full a b :=
  ⟨us, vs, h, hvs⟩

theorem act_gateRead {phase : GatePhase} {handled : List GateEffect} (hclosed : phase ≠ .closed) :
    (GateSide.party pc token welcome now session).act ⟨.read, phase, handled⟩ =
      .ofRead (Server.readFrame pc Source.bytes) (steady_serverReadFrame pc)
        (GateSide.onFrame pc token welcome now session ⟨.read, phase, handled⟩) QuicClient.lost := by
  show GateSide.act pc token welcome now session ⟨.read, phase, handled⟩ = _
  simp only [GateSide.act, hclosed, if_false]

theorem act_answer (frame : Bytes) (effect : GateEffect) (phase : GatePhase) (handled : List GateEffect) :
    (GateSide.party pc token welcome now session).act ⟨.answer frame effect, phase, handled⟩ =
      .send frame ⟨.read, phase, handled ++ [effect]⟩ ⟨.closed, phase, handled⟩ := rfl

variable (token now c) in
/-- Up to the token. -/
theorem run_greeting (hversion : welcome.protocolVersion = protocolVersion)
    (hhello : Message.Fits pc (.hello { protocolVersion, clientName := c.clientName }))
    (hwelcome : Message.Fits pc (.welcome welcome)) (hfull : [.welcome welcome] <+: full) :
    QuicRun c pc token welcome now session full ⟨.writePrelude, .start, [], []⟩
      ⟨.write (.dataPlaneAuth { token := c.token }) c.task.messages c.task.after,
        ⟨.read, .auth, [.welcome welcome]⟩, [], []⟩ := by
  obtain ⟨asked, hasked⟩ := hhello
  obtain ⟨frame, hframe⟩ := hwelcome
  -- both write first
  have hwrites : QuicRun c pc token welcome now session full ⟨.writePrelude, .start, [], []⟩
      ⟨.readPrelude, ⟨.readPrelude, .hello, []⟩, prelude, prelude⟩ :=
    .trans (.of_reach (.say rfl) (by simp)) (.of_reach (.reply rfl) (by simp))
  have hserver : QuicRun c pc token welcome now session full
      ⟨.readPrelude, ⟨.readPrelude, .hello, []⟩, prelude, prelude⟩
      ⟨.readPrelude, ⟨.read, .hello, []⟩, prelude, []⟩ :=
    .of_reach (.hear rfl (Reader.read_ok readPreludeWith_prelude)) (by simp)
  have hclient : QuicRun c pc token welcome now session full
      ⟨.readPrelude, ⟨.read, .hello, []⟩, prelude, []⟩ ⟨.writeHello, ⟨.read, .hello, []⟩, [], []⟩ :=
    .of_reach (.listen rfl (Reader.read_ok readPreludeWith_prelude)) (by simp)
  have hasked' : (c.party pc).act .writeHello = .send asked .readWelcome (.returned (.error .io)) := by
    show QuicClient.writeFrame pc _ _ = _
    rw [QuicClient.writeFrame, hasked]
  have hgreets : GateSide.onFrame pc token welcome now session ⟨.read, .hello, []⟩
      (.ok (.hello { protocolVersion, clientName := c.clientName })) =
        ⟨.answer frame (.welcome welcome), .auth, []⟩ := by
    simp only [GateSide.onFrame, GatePhase.step, gateWrite, if_true, GateEffect.reply, hframe]
  have hnext : c.onWelcome (.ok (.welcome welcome)) =
      .write (.dataPlaneAuth { token := c.token }) c.task.messages c.task.after := by
    rw [QuicClient.onWelcome, if_neg (not_not.2 hversion)]
    rfl
  refine hwrites.trans (hserver.trans (hclient.trans (.of_reach
    (.ask hasked' (act_gateRead (by decide)) ?_ (act_answer frame (.welcome welcome) .auth []) rfl ?_) ?_)))
  · rw [Reader.read_ok (serverReadFrame_encodeFrame hasked), hgreets]
  · rw [Reader.read_ok (clientReadFrame_encodeFrame hframe), hnext]
  · simpa using hfull

/-- One message of a command. -/
theorem run_message {msg : Message} {rest : List Message} {after : QuicAfter} {phase : GatePhase}
    {handled : List GateEffect} {toLeft : Bytes} (hone : msg.isOneShot)
    (hphase : phase = .request ∨ phase = .oneShot) (hmsg : msg.Fits pc)
    (hpong : ∀ pong, Message.Fits pc (.pong pong))
    (hfull : handled ++ (handleOneShot true msg).2 <+: full) :
    ∃ toLeft', QuicRun c pc token welcome now session full
      ⟨.write msg rest after, ⟨.read, phase, handled⟩, toLeft, []⟩
      ⟨.writing after rest, ⟨.read, .oneShot, handled ++ (handleOneShot true msg).2⟩, toLeft', []⟩ := by
  obtain ⟨frame, hframe⟩ := hmsg
  have hread : (GateSide.party pc token welcome now session).act ⟨.read, phase, handled⟩ = _ :=
    act_gateRead (by rcases hphase with rfl | rfl <;> decide)
  have hstep : phase.step token welcome { frame := some msg, writable := true, viewing := true } =
      handleOneShot true msg := by
    rcases hphase with rfl | rfl <;> cases msg <;> first | rfl | cases hone
  have hsilent : GateSide.onFrame pc token welcome now session ⟨.read, phase, handled⟩ (.ok msg) =
      ⟨.read, .oneShot, handled ++ (handleOneShot true msg).2⟩ → QuicRun c pc token welcome now session full
        ⟨.write msg rest after, ⟨.read, phase, handled⟩, toLeft, []⟩
        ⟨.writing after rest, ⟨.read, .oneShot, handled ++ (handleOneShot true msg).2⟩, toLeft, []⟩ :=
    fun h => .of_reach (.tell (QuicClient.party_write hframe) hread
      (by rw [Reader.read_ok (serverReadFrame_encodeFrame hframe), h])) (by simpa using hfull)
  cases msg with
  | ping ping =>
    obtain ⟨answer, hanswer⟩ := hpong { seq := ping.seq, stampNs := now handled }
    have hframe' : GateSide.onFrame pc token welcome now session ⟨.read, phase, handled⟩
        (.ok (.ping ping)) = ⟨.answer answer (.pong ping.seq), .oneShot, handled⟩ := by
      simp only [GateSide.onFrame, hstep, handleOneShot, gateWrite, if_true, GateEffect.reply, hanswer]
    refine ⟨toLeft ++ answer, .trans (.of_reach (.tell (QuicClient.party_write hframe) hread
      (by rw [Reader.read_ok (serverReadFrame_encodeFrame hframe), hframe'])) ?_)
      (.of_reach (.reply (act_answer answer (.pong ping.seq) .oneShot handled)) ?_)⟩
    · simpa using (List.prefix_append _ _).trans hfull
    · simpa using hfull
  | inputEvent event => exact ⟨toLeft, hsilent (by simp only [GateSide.onFrame, hstep]; rfl)⟩
  | clipboard payload => exact ⟨toLeft, hsilent (by simp only [GateSide.onFrame, hstep]; rfl)⟩
  | volumeChange change => exact ⟨toLeft, hsilent (by simp only [GateSide.onFrame, hstep]; rfl)⟩
  | _ => cases hone

/-- The messages of a command, one after the other. -/
theorem run_messages {messages : List Message} (rest : List Message) (after : QuicAfter) (toLeft : Bytes)
    {phase : GatePhase} {handled : List GateEffect} (hone : ∀ m ∈ messages, m.isOneShot)
    (hphase : phase = .request ∨ phase = .oneShot) (hfits : ∀ m ∈ messages, m.Fits pc)
    (hpong : ∀ pong, Message.Fits pc (.pong pong))
    (hfull : handled ++ messages.flatMap (fun m => (handleOneShot true m).2) <+: full) :
    ∃ toLeft' phase', (phase' = .request ∨ phase' = .oneShot) ∧ QuicRun c pc token welcome now session full
      ⟨.writing after (messages ++ rest), ⟨.read, phase, handled⟩, toLeft, []⟩
      ⟨.writing after rest,
        ⟨.read, phase', handled ++ messages.flatMap fun m => (handleOneShot true m).2⟩, toLeft', []⟩ := by
  induction messages generalizing phase handled toLeft with
  | nil =>
    rw [List.flatMap_nil, List.append_nil, List.nil_append]
    exact ⟨toLeft, phase, hphase, .of_reach .refl (by simp)⟩
  | cons m messages ih =>
    rw [List.forall_mem_cons] at hone hfits
    rw [List.flatMap_cons, ← List.append_assoc] at hfull ⊢
    obtain ⟨toLeft₁, hfirst⟩ := run_message hone.1 hphase hfits.1 hpong
      ((List.prefix_append _ _).trans hfull)
    obtain ⟨toLeft₂, phase', hphase', hrest⟩ := ih toLeft₁ hone.2 (.inr rfl) hfits.2 hfull
    exact ⟨toLeft₂, phase', hphase', hfirst.trans hrest⟩

/-- The client says goodbye and is done, and the server sees the end. -/
theorem run_goodbye {phase : GatePhase} {handled : List GateEffect} {toLeft : Bytes} {reason : String}
    (hphase : phase = .request ∨ phase = .oneShot) (hfits : Message.Fits pc (.goodbye { reason }))
    (hfull : handled <+: full) : QuicRun c pc token welcome now session full
      ⟨.write (.goodbye { reason }) [] .returns, ⟨.read, phase, handled⟩, toLeft, []⟩
      ⟨.returned (.ok ()), ⟨.closed, .oneShot, handled⟩, toLeft, []⟩ := by
  obtain ⟨frame, hframe⟩ := hfits
  have hread : (GateSide.party pc token welcome now session).act ⟨.read, phase, handled⟩ = _ :=
    act_gateRead (by rcases hphase with rfl | rfl <;> decide)
  have hignored : GateSide.onFrame pc token welcome now session ⟨.read, phase, handled⟩
      (.ok (.goodbye { reason })) = ⟨.read, .oneShot, handled⟩ := by
    rcases hphase with rfl | rfl <;> rfl
  refine .trans (.of_reach (.tell (QuicClient.party_write hframe) hread
    (by rw [Reader.read_ok (serverReadFrame_encodeFrame hframe), hignored])) (by simpa using hfull)) ?_
  exact .of_reach (.hangUp rfl (act_gateRead (by decide)) (Reader.read_short rfl rfl))
    (List.forall_mem_singleton.2 hfull)

/-- What is written to a server that is done. -/
theorem run_unheard {messages : List Message} (after : QuicAfter) {v : GateSide}
    {toLeft toRight : Bytes} (hfits : ∀ m ∈ messages, m.Fits pc) :
    ∃ toRight', QuicRun c pc token welcome now session full
      ⟨.writing after messages, v, toLeft, toRight⟩ ⟨.writing after [], v, toLeft, toRight'⟩ := by
  induction messages generalizing toRight with
  | nil => exact ⟨toRight, .of_reach .refl (by simp)⟩
  | cons m messages ih =>
    rw [List.forall_mem_cons] at hfits
    obtain ⟨frame, hframe⟩ := hfits.1
    obtain ⟨toRight', hrest⟩ := ih hfits.2
    exact ⟨toRight', .trans (.of_reach (.say (QuicClient.party_write hframe)) (by simp)) hrest⟩

theorem act_view {msg : Message} {rest : List Message} {phase : GatePhase} {handled : List GateEffect}
    {frame : Bytes} (h : encodeFrame pc msg = .ok frame) :
    (GateSide.party pc token welcome now session).act ⟨.view (msg :: rest), phase, handled⟩ =
      .send frame ⟨.view rest, phase, handled⟩ ⟨.closed, phase, handled⟩ := by
  show GateSide.act pc token welcome now session ⟨.view (msg :: rest), phase, handled⟩ = _
  simp only [GateSide.act, h]

/-- What a view writes to a client that is done. -/
theorem run_unseen {rest : List Message} {s : QuicState} {phase : GatePhase}
    {handled : List GateEffect} {toLeft toRight : Bytes} (hfits : ∀ m ∈ rest, m.Fits pc)
    (hfull : handled <+: full) : ∃ toLeft', QuicRun c pc token welcome now session full
      ⟨s, ⟨.view rest, phase, handled⟩, toLeft, toRight⟩
      ⟨s, ⟨.view [], phase, handled⟩, toLeft', toRight⟩ := by
  induction rest generalizing toLeft with
  | nil => exact ⟨toLeft, .of_reach .refl (by simp)⟩
  | cons m rest ih =>
    rw [List.forall_mem_cons] at hfits
    obtain ⟨frame, hframe⟩ := hfits.1
    obtain ⟨toLeft', hrest⟩ := ih hfits.2
    exact ⟨toLeft', .trans (.of_reach (.reply (act_view hframe)) (List.forall_mem_singleton.2 hfull)) hrest⟩

/-- The viewer is given a message, and is there for it or not. -/
theorem run_shown {viewed : List Message} {msg : Message} {frame toRight : Bytes} {v : GateSide}
    (h : encodeFrame pc msg = .ok frame) : QuicRun c pc token welcome now session full
      ⟨.readView viewed, v, frame, toRight⟩ ⟨c.onView viewed (.ok msg), v, [], toRight⟩ :=
  .of_reach (.listen rfl (Reader.read_ok (clientReadFrame_encodeFrame h))) (by simp)

/-- The end of the stream. -/
theorem run_viewOver {viewed : List Message} {v : GateSide} {toRight : Bytes}
    (h : (GateSide.party pc token welcome now session).halted v = true) :
    QuicRun c pc token welcome now session full ⟨.readView viewed, v, [], toRight⟩
      ⟨.returned (.error (.frame QuicClient.lost)) viewed, v, [], toRight⟩ := by
  have hact : (c.party pc).act (.readView viewed) = .ofRead (Client.readFrame pc Source.bytes)
    (steady_clientReadFrame pc) (c.onView viewed) QuicClient.lost := rfl
  have hover : Reach (GateSide.party pc token welcome now session) (c.party pc) []
      [.returned (.error (.frame QuicClient.lost)) viewed] ⟨v, .readView viewed, toRight, []⟩
      ⟨v, .returned (.error (.frame QuicClient.lost)) viewed, toRight, []⟩ :=
    .hangUp h hact (Reader.read_short rfl rfl)
  exact .of_reach hover.swap (by simp)

/-- A view from its start to its end. -/
theorem run_view {viewer : List Message → Bool} {viewed rest : List Message} {phase : GatePhase}
    {handled : List GateEffect} {toRight : Bytes} (hviewer : ∀ ms, c.task.takes ms = viewer ms)
    (hfits : ∀ m ∈ rest, m.Fits pc) (hfull : handled <+: full) :
    ∃ toLeft, QuicRun c pc token welcome now session full
      ⟨.readView viewed, ⟨.view rest, phase, handled⟩, [], toRight⟩
      ⟨viewEnding viewer viewed rest, ⟨.view [], phase, handled⟩, toLeft, toRight⟩ := by
  induction rest generalizing viewed with
  | nil => exact ⟨[], run_viewOver rfl⟩
  | cons m rest ih =>
    rw [List.forall_mem_cons] at hfits
    obtain ⟨frame, hframe⟩ := hfits.1
    have hwrites : QuicRun c pc token welcome now session full
        ⟨.readView viewed, ⟨.view (m :: rest), phase, handled⟩, [], toRight⟩
        ⟨.readView viewed, ⟨.view rest, phase, handled⟩, frame, toRight⟩ :=
      .of_reach (.reply (act_view hframe)) (List.forall_mem_singleton.2 hfull)
    have hshown := hwrites.trans (run_shown hframe)
    rw [QuicClient.onView, hviewer] at hshown
    rw [viewEnding]
    by_cases hthere : viewer viewed = true
    · rw [if_pos hthere] at hshown ⊢
      obtain ⟨toLeft, hrest⟩ := ih hfits.2
      exact ⟨toLeft, hshown.trans hrest⟩
    · rw [if_neg hthere] at hshown ⊢
      obtain ⟨toLeft, hrest⟩ := run_unseen hfits.2 hfull
      exact ⟨toLeft, hshown.trans hrest⟩

theorem halted_viewEnding (viewer : List Message → Bool) (viewed rest : List Message) :
    (c.party pc).halted (viewEnding viewer viewed rest) = true := by
  induction rest generalizing viewed with
  | nil => rfl
  | cons m rest ih =>
    rw [viewEnding]
    split
    · exact ih _
    · rfl

/-- What a view writes to the client. -/
def QuicTask.shown (session : ViewRequest → List Message) : QuicTask → List Message
  | .view socketName width height _ => session (viewRequest socketName width height)
  | _ => []

/-- The messages that both sides may write. -/
def QuicClient.messages (c : QuicClient) (welcome : Welcome) (session : ViewRequest → List Message) :
    List Message :=
  [.hello { protocolVersion, clientName := c.clientName }, .welcome welcome,
    .dataPlaneAuth { token := c.token }, .error refusal, .goodbye { reason := "ping complete" }] ++
    c.task.messages ++ c.task.shown session

/-- The frames of a conversation are not too big. -/
structure QuicClient.Fits (c : QuicClient) (pc : Postcard Message) (welcome : Welcome)
    (session : ViewRequest → List Message) : Prop where
  messages : ∀ m ∈ c.messages welcome session, m.Fits pc
  pong : ∀ pong, Message.Fits pc (.pong pong)

theorem QuicClient.Fits.task (hfits : c.Fits pc welcome session) : ∀ m ∈ c.task.messages, m.Fits pc :=
  fun m hm => hfits.messages m (List.mem_append_left _ (List.mem_append_right _ hm))

theorem QuicClient.Fits.shown (hfits : c.Fits pc welcome session) :
    ∀ m ∈ c.task.shown session, m.Fits pc :=
  fun m hm => hfits.messages m (List.mem_append_right _ hm)

variable (token now) in
/-- The task of a client with the right token. -/
theorem run_task (hfits : c.Fits pc welcome session) (htoken : c.token = token) :
    ∃ fin, QuicRun c pc token welcome now session (.welcome welcome :: c.task.effects)
      ⟨.writing c.task.after c.task.messages, ⟨.read, .request, [.welcome welcome]⟩, [], []⟩ fin ∧
    fin.Over (c.party pc) (GateSide.party pc token welcome now session) ∧
    fin.left = c.ending token session ∧ fin.right.handled = .welcome welcome :: c.task.effects := by
  have hmessages := hfits.task
  simp only [QuicClient.ending, if_pos htoken]
  cases htask : c.task with
  | send command reason =>
    rw [htask] at hmessages
    rw [QuicTask.messages, List.forall_mem_append, List.forall_mem_singleton] at hmessages
    obtain ⟨toLeft, phase, hphase, hrun⟩ := run_messages [.goodbye { reason }] .returns []
      command.oneShot (.inl rfl) hmessages.1 hfits.pong (List.prefix_rfl)
    exact ⟨_, hrun.trans (run_goodbye hphase hmessages.2 List.prefix_rfl), ⟨rfl, rfl⟩, rfl, rfl⟩
  | ping stampNs =>
    rw [htask] at hmessages
    obtain ⟨asked, hasked⟩ := hmessages (.ping { seq := 1, stampNs }) (List.mem_singleton_self _)
    obtain ⟨answer, hanswer⟩ := hfits.pong { seq := 1, stampNs := now [.welcome welcome] }
    have hping : GateSide.onFrame pc token welcome now session ⟨.read, .request, [.welcome welcome]⟩
        (.ok (.ping { seq := 1, stampNs })) =
          ⟨.answer answer (.pong 1), .oneShot, [.welcome welcome]⟩ := by
      simp only [GateSide.onFrame, GatePhase.step, handleOneShot, gateWrite, if_true, GateEffect.reply,
        hanswer]
    refine ⟨_, .trans (.of_reach (.ask (QuicClient.party_write hasked)
      (act_gateRead (by decide)) ?_ (act_answer answer (.pong 1) .oneShot [.welcome welcome]) rfl
      (Reader.read_ok (clientReadFrame_encodeFrame hanswer))) ?_)
      (run_goodbye (.inr rfl) (hfits.messages _ (by simp [QuicClient.messages])) List.prefix_rfl),
      ⟨rfl, rfl⟩, rfl, rfl⟩
    · rw [Reader.read_ok (serverReadFrame_encodeFrame hasked), hping]
    · simp [QuicTask.effects]
  | view socketName width height viewer =>
    have hshown := hfits.shown
    rw [htask] at hmessages hshown
    obtain ⟨frame, hframe⟩ := hmessages _ (List.mem_singleton_self _)
    have hviewer : ∀ ms, c.task.takes ms = viewer ms := fun ms => by
      rw [htask]
      rfl
    obtain ⟨toLeft, hview⟩ := run_view hviewer hshown List.prefix_rfl
    refine ⟨_, .trans (.of_reach (.tell (QuicClient.party_write hframe) (act_gateRead (by decide))
      (Reader.read_ok (serverReadFrame_encodeFrame hframe))) ?_) hview, ⟨halted_viewEnding _ _ _, rfl⟩, rfl,
      rfl⟩
    exact List.forall_mem_singleton.2 List.prefix_rfl

variable (token now) in
/-- The task of a client that has been refused: it is written all the same. -/
theorem run_refused (hfits : c.Fits pc welcome session) (htoken : c.token ≠ token) {frame : Bytes}
    (hframe : encodeFrame pc (.error refusal) = .ok frame) :
    ∃ fin, QuicRun c pc token welcome now session [.welcome welcome, .refused refusal]
      ⟨.writing c.task.after c.task.messages, ⟨.read, .closed, [.welcome welcome, .refused refusal]⟩,
        frame, []⟩ fin ∧
    fin.Over (c.party pc) (GateSide.party pc token welcome now session) ∧
    fin.left = c.ending token session ∧
    fin.right.handled = [.welcome welcome, .refused refusal] := by
  obtain ⟨toRight, hrun⟩ := run_unheard c.task.after hfits.task
  simp only [QuicClient.ending, if_neg htoken]
  cases htask : c.task with
  | send command reason =>
    rw [htask] at hrun
    exact ⟨_, hrun, ⟨rfl, rfl⟩, rfl, rfl⟩
  | ping stampNs =>
    rw [htask] at hrun
    exact ⟨_, hrun.trans (.of_reach (.listen rfl (Reader.read_ok (clientReadFrame_encodeFrame hframe)))
      (by simp)), ⟨rfl, rfl⟩, rfl, rfl⟩
  | view socketName width height viewer =>
    rw [htask] at hrun
    have hshown := hrun.trans (run_shown hframe)
    rw [QuicClient.onView, htask, QuicTask.takes] at hshown
    simp only [viewEnding]
    by_cases hthere : viewer [] = true
    · rw [if_pos hthere] at hshown ⊢
      exact ⟨_, hshown.trans (run_viewOver rfl), ⟨rfl, rfl⟩, rfl, rfl⟩
    · rw [if_neg hthere] at hshown ⊢
      exact ⟨_, hshown, ⟨rfl, rfl⟩, rfl, rfl⟩

variable (token now) in
/-- Up to the first message of a client with the right token. -/
theorem run_authorized (hfits : c.Fits pc welcome session)
    (hversion : welcome.protocolVersion = protocolVersion) (htoken : c.token = token)
    (hfull : [.welcome welcome] <+: full) : QuicRun c pc token welcome now session full
      ⟨.writePrelude, .start, [], []⟩
      ⟨.writing c.task.after c.task.messages, ⟨.read, .request, [.welcome welcome]⟩, [], []⟩ := by
  obtain ⟨asked, hasked⟩ := hfits.messages (.dataPlaneAuth { token := c.token })
    (by simp [QuicClient.messages])
  have hpasses : GateSide.onFrame pc token welcome now session ⟨.read, .auth, [.welcome welcome]⟩
      (.ok (.dataPlaneAuth { token := c.token })) = ⟨.read, .request, [.welcome welcome]⟩ := by
    simp only [GateSide.onFrame, GatePhase.step, htoken, if_true]
  refine (run_greeting token now c hversion (hfits.messages _ (by simp [QuicClient.messages]))
    (hfits.messages _ (by simp [QuicClient.messages])) hfull).trans (.of_reach
      (.tell (QuicClient.party_write hasked) (act_gateRead (by decide)) ?_) ?_)
  · rw [Reader.read_ok (serverReadFrame_encodeFrame hasked), hpasses]
  · simpa using hfull

variable (token now) in
/-- Up to the first message of a client with another token. -/
theorem run_unauthorized (hfits : c.Fits pc welcome session)
    (hversion : welcome.protocolVersion = protocolVersion) (htoken : c.token ≠ token) {frame : Bytes}
    (hframe : encodeFrame pc (.error refusal) = .ok frame) :
    QuicRun c pc token welcome now session [.welcome welcome, .refused refusal]
      ⟨.writePrelude, .start, [], []⟩
      ⟨.writing c.task.after c.task.messages, ⟨.read, .closed, [.welcome welcome, .refused refusal]⟩,
        frame, []⟩ := by
  obtain ⟨asked, hasked⟩ := hfits.messages (.dataPlaneAuth { token := c.token })
    (by simp [QuicClient.messages])
  have hrefuses : GateSide.onFrame pc token welcome now session ⟨.read, .auth, [.welcome welcome]⟩
      (.ok (.dataPlaneAuth { token := c.token })) =
        ⟨.answer frame (.refused refusal), .closed, [.welcome welcome]⟩ := by
    rw [refusal] at hframe ⊢
    simp only [GateSide.onFrame, GatePhase.step, htoken, if_false, gateWrite, if_true,
      GateEffect.reply, hframe]
  refine (run_greeting token now c hversion (hfits.messages _ (by simp [QuicClient.messages]))
    (hfits.messages _ (by simp [QuicClient.messages])) (by simp)).trans (.trans (.of_reach
      (.tell (QuicClient.party_write hasked) (act_gateRead (by decide)) ?_) ?_)
      (.of_reach (.reply (act_answer frame (.refused refusal) .closed [.welcome welcome])) ?_))
  · rw [Reader.read_ok (serverReadFrame_encodeFrame hasked), hrefuses]
  · simp
  · simp

/-- A conversation from its beginning to its end. -/
theorem run_client (hfits : c.Fits pc welcome session)
    (hversion : welcome.protocolVersion = protocolVersion) :
    ∃ fin, QuicRun c pc token welcome now session (c.expected token welcome)
        ⟨.writePrelude, .start, [], []⟩ fin ∧
      fin.Over (c.party pc) (GateSide.party pc token welcome now session) ∧
      fin.left = c.ending token session ∧ fin.right.handled = c.expected token welcome := by
  by_cases htoken : c.token = token
  · obtain ⟨fin, hrun, hend⟩ := run_task token now hfits htoken
    have hexpected : c.expected token welcome = .welcome welcome :: c.task.effects := by
      rw [QuicClient.expected, if_pos htoken]
    rw [hexpected]
    exact ⟨fin, (run_authorized token now hfits hversion htoken
      (List.prefix_append [GateEffect.welcome welcome] _)).trans hrun, hend⟩
  · obtain ⟨frame, hframe⟩ := hfits.messages (.error refusal) (by simp [QuicClient.messages])
    obtain ⟨fin, hrun, hend⟩ := run_refused token now hfits htoken hframe
    have hexpected : c.expected token welcome = [.welcome welcome, .refused refusal] := by
      rw [QuicClient.expected, if_neg htoken]
    rw [hexpected]
    exact ⟨fin, (run_unauthorized token now hfits hversion htoken hframe).trans hrun, hend⟩

/-! ## Delays and failures -/

theorem fits_pong (pong : Pong) : Message.Fits messageWire (.pong pong) := by
  have henc : messageWire.toAllocvec (.pong pong) = (Wire.variant 16 (by decide)).encode 4 ++
      (Wire.u64.encode pong.seq ++ Wire.u64.encode pong.stampNs) := rfl
  have hvariant : ((Wire.variant 16 (by decide)).encode 4).length = 1 := by decide
  have hseq := Wire.u64_length pong.seq
  have hstamp := Wire.u64_length pong.stampNs
  cases h : encodeFrame messageWire (.pong pong) with
  | ok frame => exact ⟨frame, h⟩
  | error e =>
    have hbig := encodeFrame_error_iff.1 ⟨e, h⟩
    have hmax : maxFrameBytes.toNat = 64 * 1024 * 1024 := rfl
    rw [henc, List.length_append, List.length_append] at hbig
    omega

/-- Two windows are closed by a command. -/
def closing : QuicClient :=
  { clientName := "vbox-client/0.1.3 (linux x86_64)", token := "hex",
    task := .send (.input [.close 7, .close 8]) "close" }

def greeted : Welcome :=
  { protocolVersion, serverName := "vbox-server/0.1.3 (linux, Wayland-first)", sessionId := 1 }

theorem fits_closing : closing.Fits messageWire greeted fun _ => [] := ⟨by decide +kernel, fits_pong⟩

/-- **The server does what it is asked for.** Whatever the delays, if nothing fails the conversation comes
to an end. A client with the right token has then had all its messages handled, in order and each once,
and a viewer everything that its view has written, in order, unless it went away before; any other client
has had nothing but the refusal. A command does not look at it, a ping returns it as an error, and a view
gives it to its viewer. -/
theorem command_ends (hfits : c.Fits pc welcome session)
    (hversion : welcome.protocolVersion = protocolVersion) :
    (Net.start .writePrelude .start).Ends (c.party pc) (GateSide.party pc token welcome now session)
      fun n => n.left = c.ending token session ∧ n.right.handled = c.expected token welcome := by
  obtain ⟨fin, ⟨us, vs, hreach, -⟩, hover, hleft, hright⟩ := run_client hfits hversion
  exact (ends_of_reach (n := .start _ _) hover hreach).mono fun n h => h ▸ ⟨hleft, hright⟩

theorem command_ends_closing : (Net.start .writePrelude .start).Ends (closing.party messageWire)
    (GateSide.party messageWire "hex" greeted (fun _ => 0) fun _ => []) fun n =>
      n.left = .returned (.ok ()) ∧
        n.right.handled = [.welcome greeted, .input (.close 7), .input (.close 8)] :=
  command_ends fits_closing rfl

theorem handled_of_fails {v v' : GateSide} {cut : Bytes}
    (h : (GateSide.party pc token welcome now session).Fails v cut v') : v'.handled = v.handled := by
  cases h with
  | send hact _ => rw [GateSide.act_send hact]
  | recv bs hact => rw [GateSide.act_recv hact bs]

/-- **Failures only cut short.** Whatever is delayed or fails, the server has handled a beginning of what
it would handle otherwise. -/
theorem command_prefix (hfits : c.Fits pc welcome session)
    (hversion : welcome.protocolVersion = protocolVersion) {n : Net QuicState GateSide}
    (hrun : Relation.ReflTransGen
      (Net.FaultyStep (c.party pc) (GateSide.party pc token welcome now session))
      (.start .writePrelude .start) n) : n.right.handled <+: c.expected token welcome := by
  obtain ⟨fin, ⟨us, vs, hreach, hvs⟩, hover, -, -⟩ := run_client hfits hversion
  obtain ⟨ss, ts, d, htracks⟩ := Net.tracks_of_run _ hrun
  obtain ⟨-, hts, -⟩ := hreach.completes hover htracks.reach
  have hall : ∀ v ∈ GateSide.start :: ts, v.handled <+: c.expected token welcome :=
    List.forall_mem_cons.2 ⟨List.nil_prefix, fun v hv => hvs v (hts.subset hv)⟩
  cases htracks.right with
  | up h => exact h ▸ hall _ htracks.reach.right_mem
  | failed hmem _ hfails => exact handled_of_fails hfails ▸ hall _ hmem

/-- The connection breaks while the client writes its second message. -/
theorem closing_cutOff : ∃ n, Relation.ReflTransGen (Net.FaultyStep (closing.party messageWire)
      (GateSide.party messageWire "hex" greeted (fun _ => 0) fun _ => []))
      (.start .writePrelude .start) n ∧
    n.left = .returned (.error .io) ∧ n.right.handled = [.welcome greeted, .input (.close 7)] := by
  obtain ⟨frame, hframe⟩ := fits_closing.task (.inputEvent (.close 8)) (by decide)
  have hfull : [.welcome greeted] ++ [.input (.close 7)] <+: closing.expected "hex" greeted := by decide
  obtain ⟨toLeft, hfirst⟩ := run_message rfl (.inl rfl)
    (fits_closing.task (.inputEvent (.close 7)) (by decide)) fits_pong hfull
  obtain ⟨us, vs, hreach, -⟩ := (run_authorized "hex" (fun _ => 0) fits_closing rfl rfl
    (by decide)).trans hfirst
  exact ⟨_, (Net.faultyRun_of_reach hreach).tail
    (.left (.send (QuicClient.party_write hframe) (List.take_prefix 3 frame))), rfl, rfl⟩

theorem command_prefix_cutOff : ∃ n : Net QuicState GateSide, n.left = .returned (.error .io) ∧
    n.right.handled = [.welcome greeted, .input (.close 7)] ∧
      n.right.handled <+: closing.expected "hex" greeted := by
  obtain ⟨n, hrun, hleft, hright⟩ := closing_cutOff
  exact ⟨n, hleft, hright, command_prefix fits_closing rfl hrun⟩

end Conversation
end VBox
