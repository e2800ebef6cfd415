import VBox.Controld.Session
import VBox.Lib.Duplex
import VBox.Proto.Prelude

/-!
# Controld.CtlCall

One call of `vbox ctl` (`call` and `rpc_round_trip` in `crates/client/src/ctl/call.rs`) and the control
session that answers it (`handle_session` in `crates/controld/src/main.rs`), each as a party of a
connection. What the daemon does with a frame is `Session.step`.

* `call_ends`: whatever the delays, the call ends, and returns what the daemon answers.
* `call_at_most_once`: whatever fails, the daemon executes the method at most once, and has executed it
  when the call succeeds.
-/

namespace VBox.Controld

open ByteStream (Source Read)
open ByteCodec (Bytes)
open Duplex

/-! ## The client -/

inductive CallError where
  /-- A write failed. -/
  | io
  /-- A frame or a prelude could not be read, or a frame not be encoded. -/
  | frame (e : Error)
  | msg (text : String)
  deriving DecidableEq

/-- The call, by what it does next. -/
inductive CallState where
  | writePrelude
  | readPrelude
  | writeHello
  | readWelcome
  /-- `rpc_round_trip`, with the request that comes after it, if there is one. -/
  | writeRequest (req : RpcRequest) (after : Option RpcRequest)
  | readResponse (after : Option RpcRequest)
  | writeGoodbye (ok : RpcOk)
  | returned (result : Except CallError RpcOk)

structure CtlCall where
  tls : Bool
  /-- What `load_token` returns. -/
  token : Except CallError String
  method : RpcMethod

def buildCtlHello : Hello :=
  { protocolVersion, clientName := "vbox-client/0.1.3 (ctl)" }

def CtlCall.request (c : CtlCall) : RpcRequest := { id := 2, method := c.method }

/-- Over TLS the certificate has authenticated the client. -/
def CtlCall.afterWelcome (c : CtlCall) : CallState :=
  if c.tls then .writeRequest c.request none
  else
    match c.token with
    | .error e => .returned (.error e)
    | .ok token => .writeRequest { id := 1, method := .authenticate token } (some c.request)

def CtlCall.onWelcome (c : CtlCall) : Except Error Message → CallState
  | .ok (.welcome _) => c.afterWelcome
  | .ok (.error e) =>
    .returned (.error (.msg s!"daemon error during handshake: {e.message} (code {e.code})"))
  | .ok other => .returned (.error (.msg s!"expected Welcome, got {other.kind.debug}"))
  | .error e => .returned (.error (.frame e))

def onResponse (after : Option RpcRequest) : Except Error Message → CallState
  | .ok (.rpcResponse r) =>
    match r.result with
    | .ok ok =>
      match after with
      | some req => .writeRequest req none
      | none => .writeGoodbye ok
    | .err text => .returned (.error (.msg text))
  | .ok (.error e) => .returned (.error (.msg s!"daemon error: {e.message} (code {e.code})"))
  | .ok other => .returned (.error (.msg s!"expected RpcResponse, got {other.kind.debug}"))
  | .error e => .returned (.error (.frame e))

def onPrelude (next : CallState) : Except Error UInt16 → CallState
  | .ok _ => next
  | .error e => .returned (.error (.frame e))

/-- The error of a connection that is lost. -/
def connectionLost : Error := .io "reading frame length" .unexpectedEof

section Parties

variable (pc : Postcard Message)

/-- `write_frame`, of which a failure is returned. A frame that cannot be encoded is not written. -/
def writeFrame (msg : Message) (next : CallState) : Action CallState :=
  match encodeFrame pc msg with
  | .ok frame => .send frame next (.returned (.error .io))
  | .error e => .send [] (.returned (.error (.frame e))) (.returned (.error (.frame e)))

def CtlCall.act (c : CtlCall) : CallState → Action CallState
  | .writePrelude => .send prelude .readPrelude (.returned (.error .io))
  | .readPrelude =>
    .ofRead (VBox.readPrelude Source.bytes) steady_readPreludeWith (onPrelude .writeHello)
      connectionLost
  | .writeHello => writeFrame pc (.hello buildCtlHello) .readWelcome
  | .readWelcome => .ofRead (readFrame pc Source.bytes) (steady_readFrame pc) c.onWelcome connectionLost
  | .writeRequest req after => writeFrame pc (.rpcRequest req) (.readResponse after)
  | .readResponse after =>
    .ofRead (readFrame pc Source.bytes) (steady_readFrame pc) (onResponse after) connectionLost
  -- whether the daemon is told goodbye does not matter
  | .writeGoodbye ok =>
    match encodeFrame pc (.goodbye { reason := "ctl done" }) with
    | .ok frame => .send frame (.returned (.ok ok)) (.returned (.ok ok))
    | .error _ => .send [] (.returned (.ok ok)) (.returned (.ok ok))
  | .returned _ => .halt

/-- A write that fails ends the call, and only the goodbye may fail. -/
theorem CtlCall.act_send {c : CtlCall} {s next failed : CallState} {bs : Bytes}
    (h : c.act pc s = .send bs next failed) : (∃ e, failed = .returned (.error e)) ∨
      ∃ ok, s = .writeGoodbye ok ∧ next = .returned (.ok ok) ∧ failed = .returned (.ok ok) := by
  cases s with
  | writePrelude =>
    cases h
    exact .inl ⟨_, rfl⟩
  | writeHello =>
    rw [CtlCall.act, writeFrame] at h
    split at h <;> cases h <;> exact .inl ⟨_, rfl⟩
  | writeRequest req after =>
    rw [CtlCall.act, writeFrame] at h
    split at h <;> cases h <;> exact .inl ⟨_, rfl⟩
  | writeGoodbye ok =>
    rw [CtlCall.act] at h
    split at h <;> cases h <;> exact .inr ⟨ok, rfl, rfl, rfl⟩
  | readPrelude => cases h
  | readWelcome => cases h
  | readResponse => cases h
  | returned => cases h

theorem CtlCall.act_recv {c : CtlCall} {s : CallState} {reader : Reader CallState}
    {failed : Bytes → CallState} (h : c.act pc s = .recv reader failed) (bs : Bytes) :
    ∃ e, failed bs = .returned (.error (.frame e)) := by
  cases s with
  | readPrelude => exact Action.eq_of_ofRead h bs
  | readWelcome => exact Action.eq_of_ofRead h bs
  | readResponse => exact Action.eq_of_ofRead h bs
  | writePrelude => cases h
  | writeHello =>
    rw [CtlCall.act, writeFrame] at h
    split at h <;> cases h
  | writeRequest =>
    rw [CtlCall.act, writeFrame] at h
    split at h <;> cases h
  | writeGoodbye =>
    rw [CtlCall.act] at h
    split at h <;> cases h
  | returned => cases h

/-- `call`, once it is connected. -/
def CtlCall.party (c : CtlCall) : Party CallState where
  act := c.act pc
  failed_send := by
    intro s bs next failed h
    obtain ⟨e, rfl⟩ | ⟨ok, -, -, rfl⟩ := CtlCall.act_send pc h <;> rfl
  failed_recv := by
    intro s reader failed h bs
    obtain ⟨e, he⟩ := CtlCall.act_recv pc h bs
    rw [he]
    rfl

/-! ## The daemon -/

inductive ServeStage where
  | readPrelude
  | writePrelude
  | read
  | answer (frame : Bytes)
  | closed
  deriving DecidableEq

/-- A session, by what it does next, with the operations of the daemon that it has called. -/
structure Served (σ : Type) where
  stage : ServeStage
  session : Session σ
  calls : List DaemonCall

variable {σ : Type} (api : DaemonApi σ) (token : String) (sessionId : UInt64)

def Served.start (tls : Bool) (d : σ) : Served σ :=
  { stage := .readPrelude, session := .start tls d, calls := [] }

def Served.onPrelude (v : Served σ) : Except Error UInt16 → Served σ
  | .ok _ => { v with stage := .writePrelude }
  | .error _ => { v with stage := .closed }

/-- A message has been read. Its answer is encoded and then written. -/
def Served.onFrame (v : Served σ) : Except Error Message → Served σ
  | .ok message =>
    let (session, answer) := v.session.step api token sessionId { message, writable := true }
    let v := { v with session, calls := v.calls ++ answer.calls }
    match answer.replies with
    | [] => v
    | reply :: _ =>
      match encodeFrame pc reply with
      | .ok frame => { v with stage := .answer frame }
      | .error _ => { v with stage := .closed }
  | .error _ => { v with stage := .closed }

/-- A failure ends the session. -/
def Served.act (v : Served σ) : Action (Served σ) :=
  match v.stage with
  | .readPrelude =>
    .ofRead (VBox.readPrelude Source.bytes) steady_readPreludeWith v.onPrelude connectionLost
  | .writePrelude => .send prelude { v with stage := .read } { v with stage := .closed }
  | .read =>
    if v.session.phase = .closed then .halt
    else .ofRead (readFrame pc Source.bytes) (steady_readFrame pc) (v.onFrame pc api token sessionId)
      connectionLost
  | .answer frame => .send frame { v with stage := .read } { v with stage := .closed }
  | .closed => .halt

/-- What `act` does with the session: nothing, but when a message is read. -/
theorem Served.act_send {v next failed : Served σ} {bs : Bytes}
    (h : v.act pc api token sessionId = .send bs next failed) :
    next = { v with stage := .read } ∧ failed = { v with stage := .closed } := by
  rw [Served.act] at h
  split at h
  · cases h
  · cases h
    exact ⟨rfl, rfl⟩
  · split at h <;> cases h
  · cases h
    exact ⟨rfl, rfl⟩
  · cases h

theorem Served.act_recv {v : Served σ} {reader : Reader (Served σ)} {failed : Bytes → Served σ}
    (h : v.act pc api token sessionId = .recv reader failed) (bs : Bytes) :
    failed bs = { v with stage := .closed } := by
  rw [Served.act] at h
  split at h
  · obtain ⟨e, he⟩ := Action.eq_of_ofRead h bs
    exact he
  · cases h
  · split at h
    · cases h
    · obtain ⟨e, he⟩ := Action.eq_of_ofRead h bs
      exact he
  · cases h
  · cases h

/-- `handle_session` -/
def Served.party : Party (Served σ) where
  act := Served.act pc api token sessionId
  failed_send := by
    intro v bs next failed h
    rw [(Served.act_send pc api token sessionId h).2]
    rfl
  failed_recv := by
    intro v reader failed h bs
    rw [Served.act_recv pc api token sessionId h bs]
    rfl

end Parties

/-! ## The conversation -/

section Conversation

variable {pc : Postcard Message} {σ : Type} {api : DaemonApi σ} {token : String} {sessionId : UInt64}
  {c : CtlCall} {d : σ} {calls : List DaemonCall} {authenticated : Bool}

/-- The client is one whose requests are served. -/
def CtlCall.Authorized (c : CtlCall) (token : String) : Prop :=
  c.tls = true ∨ ∃ supplied, c.token = .ok supplied ∧ bytesOf supplied = bytesOf token

/-- What the daemon does with the method of an authorized client. -/
def CtlCall.dispatched (c : CtlCall) (api : DaemonApi σ) (token : String) (d : σ) : Dispatched σ :=
  dispatch api token d c.request true

/-- The messages that may be exchanged. -/
def CtlCall.messages (c : CtlCall) (api : DaemonApi σ) (token : String) (sessionId : UInt64) (d : σ) :
    List Message :=
  [.hello buildCtlHello, .welcome (buildWelcome sessionId), .rpcRequest c.request,
    .rpcResponse (c.dispatched api token d).response, .goodbye { reason := "ctl done" }] ++
  match c.token with
  | .ok supplied =>
    [.rpcRequest { id := 1, method := .authenticate supplied },
      .rpcResponse { id := 1, result := authenticate (bytesOf supplied) (bytesOf token) }]
  | .error _ => []

/-- The result of a call whose response has come. -/
def resultOf : RpcResult → Except CallError RpcOk
  | .ok ok => .ok ok
  | .err text => .error (.msg text)

/-- A session after the greeting. -/
def serving (authenticated : Bool) (d : σ) (calls : List DaemonCall) (stage : ServeStage) : Served σ :=
  { stage, session := { phase := .serving, authenticated, daemon := d }, calls }

theorem onFrame_request {req : RpcRequest} {frame : Bytes}
    (h : encodeFrame pc (.rpcResponse (dispatch api token d req authenticated).response) = .ok frame) :
    (serving authenticated d calls .read).onFrame pc api token sessionId (.ok (.rpcRequest req)) =
      serving (dispatch api token d req authenticated).authenticated
        (dispatch api token d req authenticated).daemon
        (calls ++ (dispatch api token d req authenticated).calls) (.answer frame) := by
  simp only [Served.onFrame, serving, step_request, Session.write, if_true, h]

theorem act_answer {frame : Bytes} :
    (Served.party pc api token sessionId).act (serving authenticated d calls (.answer frame)) =
      .send frame (serving authenticated d calls .read) (serving authenticated d calls .closed) := rfl

theorem act_read : (Served.party pc api token sessionId).act (serving authenticated d calls .read) =
    .ofRead (readFrame pc Source.bytes) (steady_readFrame pc)
      ((serving authenticated d calls .read).onFrame pc api token sessionId) connectionLost := rfl

theorem act_writeFrame {msg : Message} {next : CallState} {frame : Bytes}
    (h : encodeFrame pc msg = .ok frame) :
    writeFrame pc msg next = .send frame next (.returned (.error .io)) := by
  rw [writeFrame, h]

variable (api sessionId c d calls authenticated) in
/-- A request and its response. -/
theorem reach_roundTrip (req : RpcRequest) (after : Option RpcRequest)
    (hreq : Message.Fits pc (.rpcRequest req))
    (hresp : Message.Fits pc (.rpcResponse (dispatch api token d req authenticated).response)) :
    ∃ frame, Reach (c.party pc) (Served.party pc api token sessionId)
      [.readResponse after,
        onResponse after (.ok (.rpcResponse (dispatch api token d req authenticated).response))]
      [serving (dispatch api token d req authenticated).authenticated
          (dispatch api token d req authenticated).daemon
          (calls ++ (dispatch api token d req authenticated).calls) (.answer frame),
        serving (dispatch api token d req authenticated).authenticated
          (dispatch api token d req authenticated).daemon
          (calls ++ (dispatch api token d req authenticated).calls) .read]
      ⟨.writeRequest req after, serving authenticated d calls .read, [], []⟩
      ⟨onResponse after (.ok (.rpcResponse (dispatch api token d req authenticated).response)),
        serving (dispatch api token d req authenticated).authenticated
          (dispatch api token d req authenticated).daemon
          (calls ++ (dispatch api token d req authenticated).calls) .read, [], []⟩ := by
  obtain ⟨asked, hasked⟩ := hreq
  obtain ⟨frame, hframe⟩ := hresp
  refine ⟨frame, .ask (act_writeFrame hasked) act_read ?_ act_answer rfl
    (Reader.read_ok (readFrame_encodeFrame hframe))⟩
  rw [Reader.read_ok (readFrame_encodeFrame hasked), onFrame_request hframe]

variable (api token c d) in
/-- The greeting, without the client's token. -/
theorem reach_greeting (hhello : Message.Fits pc (.hello buildCtlHello))
    (hwelcome : Message.Fits pc (.welcome (buildWelcome sessionId))) (tls : Bool) :
    ∃ frame, Reach (c.party pc) (Served.party pc api token sessionId)
      [.readPrelude, .writeHello, .readWelcome, c.afterWelcome]
      [{ Served.start tls d with stage := .writePrelude }, { Served.start tls d with stage := .read },
        serving tls d [] (.answer frame), serving tls d [] .read]
      ⟨.writePrelude, .start tls d, [], []⟩ ⟨c.afterWelcome, serving tls d [] .read, [], []⟩ := by
  obtain ⟨asked, hasked⟩ := hhello
  obtain ⟨frame, hframe⟩ := hwelcome
  have hgreets : ({ Served.start tls d with stage := .read } : Served σ).onFrame pc api token sessionId
      (.ok (.hello buildCtlHello)) = serving tls d [] (.answer frame) := by
    simp only [Served.onFrame, Served.start, Session.start, Session.step, checkProtocolVersion,
      buildCtlHello, Session.write, if_true, hframe]
    rfl
  have hprelude : Reach (c.party pc) (Served.party pc api token sessionId) [.readPrelude, .writeHello]
      [{ Served.start tls d with stage := .writePrelude }, { Served.start tls d with stage := .read }]
      ⟨.writePrelude, .start tls d, [], []⟩
      ⟨.writeHello, { Served.start tls d with stage := .read }, [], []⟩ :=
    .ask rfl rfl (Reader.read_ok readPreludeWith_prelude) rfl rfl (Reader.read_ok readPreludeWith_prelude)
  refine ⟨frame, hprelude.trans (.ask (act_writeFrame hasked) rfl ?_ act_answer rfl
    (Reader.read_ok (readFrame_encodeFrame hframe)))⟩
  rw [Reader.read_ok (readFrame_encodeFrame hasked), hgreets]

/-- The call is about to succeed, or has succeeded. -/
def CallState.Succeeded (s : CallState) (ok : RpcOk) : Prop :=
  s = .writeGoodbye ok ∨ s = .returned (.ok ok)

/-- The daemon has not been asked for anything. -/
def Served.Idle (v : Served σ) (d : σ) : Prop := v.session.daemon = d ∧ v.calls = []

/-- The daemon has done what it was asked. -/
def Served.Executed (v : Served σ) (r : Dispatched σ) : Prop :=
  v.session.daemon = r.daemon ∧ v.calls = r.calls

variable (api sessionId c d) in
/-- The token is shown. -/
theorem reach_authenticate {supplied : String}
    (hreq : Message.Fits pc (.rpcRequest { id := 1, method := .authenticate supplied }))
    (hresp : Message.Fits pc (.rpcResponse
      { id := 1, result := authenticate (bytesOf supplied) (bytesOf token) })) :
    ∃ frame, Reach (c.party pc) (Served.party pc api token sessionId)
      [.readResponse (some c.request), onResponse (some c.request) (.ok (.rpcResponse
        { id := 1, result := authenticate (bytesOf supplied) (bytesOf token) }))]
      [serving (RpcResult.isOk (authenticate (bytesOf supplied) (bytesOf token))) d [] (.answer frame),
        serving (RpcResult.isOk (authenticate (bytesOf supplied) (bytesOf token))) d [] .read]
      ⟨.writeRequest { id := 1, method := .authenticate supplied } (some c.request),
        serving false d [] .read, [], []⟩
      ⟨onResponse (some c.request) (.ok (.rpcResponse
          { id := 1, result := authenticate (bytesOf supplied) (bytesOf token) })),
        serving (RpcResult.isOk (authenticate (bytesOf supplied) (bytesOf token))) d [] .read, [], []⟩ :=
  reach_roundTrip api sessionId c d [] false _ _ hreq hresp

theorem onFrame_goodbye (reason : String) :
    (serving authenticated d calls .read).onFrame pc api token sessionId (.ok (.goodbye { reason })) =
      { stage := .read, session := { phase := .closed, authenticated, daemon := d }, calls } := by
  simp only [Served.onFrame, serving, Session.step, decideSessionAction, List.append_nil]

variable (api token sessionId c d calls) in
/-- The end of a call whose response has come. -/
theorem reach_farewell (hgoodbye : Message.Fits pc (.goodbye { reason := "ctl done" })) (id : UInt64)
    (result : RpcResult) :
    ∃ us vs fin, Reach (c.party pc) (Served.party pc api token sessionId) us vs
        ⟨onResponse none (.ok (.rpcResponse { id, result })), serving true d calls .read, [], []⟩ fin ∧
      fin.Over (c.party pc) (Served.party pc api token sessionId) ∧
      fin.left = .returned (resultOf result) ∧
      (∀ v ∈ vs, v.session.daemon = d ∧ v.calls = calls) ∧
      ∀ s ∈ onResponse none (.ok (.rpcResponse { id, result })) :: us, ∀ ok, s.Succeeded ok →
        result = .ok ok := by
  cases result with
  | ok ok =>
    obtain ⟨frame, hframe⟩ := hgoodbye
    have hact : (c.party pc).act (.writeGoodbye ok) =
        .send frame (.returned (.ok ok)) (.returned (.ok ok)) := by
      show CtlCall.act pc c (.writeGoodbye ok) = _
      rw [CtlCall.act, hframe]
    refine ⟨_, [{ stage := .read, session := { phase := .closed, authenticated := true, daemon := d }, calls }],
      _, .tell hact act_read ?_, ⟨rfl, rfl⟩, rfl, ?_, ?_⟩
    · rw [Reader.read_ok (readFrame_encodeFrame hframe), onFrame_goodbye]
    · rintro v hv
      rw [List.mem_singleton.1 hv]
      exact ⟨rfl, rfl⟩
    · simp [onResponse, CallState.Succeeded]
  | err text =>
    refine ⟨[], [serving true d calls .closed], _, .hangUp rfl act_read
      (Reader.read_short rfl rfl), ⟨rfl, rfl⟩, rfl, ?_, ?_⟩
    · rintro v hv
      rw [List.mem_singleton.1 hv]
      exact ⟨rfl, rfl⟩
    · simp [onResponse, CallState.Succeeded]

/-- Why a client is not served. -/
def CtlCall.refusal (c : CtlCall) : CallError :=
  match c.token with
  | .error e => e
  | .ok _ => .msg "authentication failed"

/-- What holds of a call in every state. -/
def CtlCall.Holds (c : CtlCall) (api : DaemonApi σ) (token : String) (d : σ) (s : CallState)
    (v : Served σ) : Prop :=
  (v.Idle d ∨ (c.Authorized token ∧ v.Executed (c.dispatched api token d))) ∧
    ∀ ok, s.Succeeded ok → c.Authorized token ∧
      (c.dispatched api token d).response.result = .ok ok ∧ v.Executed (c.dispatched api token d)

/-- How a call ends. -/
def CtlCall.Ended (c : CtlCall) (api : DaemonApi σ) (token : String) (d : σ) (s : CallState)
    (v : Served σ) : Prop :=
  (c.Authorized token → s = .returned (resultOf (c.dispatched api token d).response.result) ∧
      v.Executed (c.dispatched api token d)) ∧
    (¬ c.Authorized token → s = .returned (.error c.refusal) ∧ v.Idle d)

/-- Without delays and failures a call comes to its end. -/
def CtlCall.Settles (c : CtlCall) (pc : Postcard Message) (api : DaemonApi σ) (token : String)
    (sessionId : UInt64) (d : σ) : Prop :=
  ∃ us vs fin, Reach (c.party pc) (Served.party pc api token sessionId) us vs
      ⟨.writePrelude, .start c.tls d, [], []⟩ fin ∧
    fin.Over (c.party pc) (Served.party pc api token sessionId) ∧
    c.Ended api token d fin.left fin.right ∧
    ∀ ss ts d', Reach (c.party pc) (Served.party pc api token sessionId) ss ts
        ⟨.writePrelude, .start c.tls d, [], []⟩ d' → c.Holds api token d d'.left d'.right

/-- Where the method is asked for: until then nothing has been done, and after it all follows. -/
theorem settles_of_method (hfits : ∀ msg ∈ c.messages api token sessionId d, msg.Fits pc)
    (hauth : c.Authorized token) {us : List CallState} {vs : List (Served σ)}
    (h : Reach (c.party pc) (Served.party pc api token sessionId) us vs
      ⟨.writePrelude, .start c.tls d, [], []⟩
      ⟨.writeRequest c.request none, serving true d [] .read, [], []⟩)
    (hleft : ∀ s ∈ CallState.writePrelude :: us, ∀ ok, ¬ s.Succeeded ok)
    (hright : ∀ v ∈ Served.start c.tls d :: vs, v.Idle d) : c.Settles pc api token sessionId d := by
  obtain ⟨asked, hasked⟩ := hfits (.rpcRequest c.request) (by simp [CtlCall.messages])
  obtain ⟨frame, hframe⟩ := hfits (.rpcResponse (c.dispatched api token d).response)
    (by simp [CtlCall.messages])
  have hgoodbye := hfits (.goodbye { reason := "ctl done" }) (by simp [CtlCall.messages])
  -- the client waits, and the daemon has not read the request
  have hwait : Reach (c.party pc) (Served.party pc api token sessionId) [.readResponse none] []
      ⟨.writeRequest c.request none, serving true d [] .read, [], []⟩
      ⟨.readResponse none, serving true d [] .read, [], asked⟩ :=
    .left (Party.move_send (act_writeFrame hasked)) .refl
  have hstuck : (c.party pc).move (.readResponse none) []
      ((Served.party pc api token sessionId).halted (serving true d [] .read)) = none :=
    Party.move_waits rfl (Reader.read_short rfl rfl)
  obtain ⟨us', vs', fin, hfarewell, hover, hreturned, hafter, hok⟩ :=
    reach_farewell api token sessionId c (c.dispatched api token d).daemon
      (c.dispatched api token d).calls hgoodbye (c.dispatched api token d).response.id
      (c.dispatched api token d).response.result
  have hflag : (c.dispatched api token d).authenticated = true :=
    (dispatch_authenticated d c.request true).2 (.inl rfl)
  have hanswer : (serving true d [] .read).onFrame pc api token sessionId (.ok (.rpcRequest c.request)) =
      serving true (c.dispatched api token d).daemon (c.dispatched api token d).calls (.answer frame) := by
    rw [onFrame_request hframe, ← CtlCall.dispatched, hflag]
    rfl
  have hrest : Reach (c.party pc) (Served.party pc api token sessionId)
      [onResponse none (.ok (.rpcResponse (c.dispatched api token d).response))]
      [serving true (c.dispatched api token d).daemon (c.dispatched api token d).calls (.answer frame),
        serving true (c.dispatched api token d).daemon (c.dispatched api token d).calls .read]
      ⟨.readResponse none, serving true d [] .read, [], asked⟩
      ⟨onResponse none (.ok (.rpcResponse (c.dispatched api token d).response)),
        serving true (c.dispatched api token d).daemon (c.dispatched api token d).calls .read, [], []⟩ := by
    refine Reach.trans (.hear act_read ?_) (Reach.tell act_answer rfl
      (Reader.read_ok (readFrame_encodeFrame hframe))).swap
    rw [Reader.read_ok (readFrame_encodeFrame hasked), hanswer]
  have hbefore := h.trans hwait
  have hthen := hrest.trans hfarewell
  rw [List.append_nil] at hbefore
  have hexecuted : ∀ v ∈ [serving true (c.dispatched api token d).daemon
      (c.dispatched api token d).calls (.answer frame), serving true (c.dispatched api token d).daemon
      (c.dispatched api token d).calls .read] ++ vs', v.Executed (c.dispatched api token d) := by
    intro v hv
    obtain hv | hv := List.mem_append.1 hv
    · simp only [List.mem_cons, List.not_mem_nil, or_false] at hv
      obtain rfl | rfl := hv <;> exact ⟨rfl, rfl⟩
    · exact hafter v hv
  have hlast := hexecuted _ (List.mem_of_getLast? (hthen.right_last_of_ne_nil (by simp)))
  refine ⟨_, _, fin, hbefore.trans hthen, hover,
    ⟨fun _ => ⟨hreturned, hlast⟩, fun hnot => absurd hauth hnot⟩, fun ss ts d' hreach => ⟨?_, ?_⟩⟩
  · obtain ⟨-, hts, -⟩ := (hbefore.trans hthen).completes hover hreach
    have hmem := (List.cons_subset_cons (Served.start c.tls d) hts.subset) hreach.right_mem
    rw [← List.cons_append] at hmem
    obtain hmem | hmem := List.mem_append.1 hmem
    · exact .inl (hright _ hmem)
    · exact .inr ⟨hauth, hexecuted _ hmem⟩
  · intro ok hsucceeded
    have hnot : d'.left ∉ CallState.writePrelude :: (us ++ [.readResponse none]) := by
      rw [← List.cons_append, List.mem_append, List.mem_singleton]
      rintro (hmem | hmem)
      · exact hleft _ hmem ok hsucceeded
      · rw [hmem] at hsucceeded
        obtain h | h := hsucceeded <;> cases h
    refine ⟨hauth, ?_, hexecuted _ ((hbefore.left_mem_or_right_mem hstuck hthen hover hreach).resolve_left hnot)⟩
    obtain ⟨hss, -, -⟩ := (hbefore.trans hthen).completes hover hreach
    have hmem := (List.cons_subset_cons CallState.writePrelude hss.subset) hreach.left_mem
    rw [← List.cons_append] at hmem
    exact hok _ ((List.mem_append.1 hmem).resolve_left hnot) ok hsucceeded

/-- The client gives up, and the daemon sees it go. -/
theorem settles_of_refused (hnot : ¬ c.Authorized token) {us : List CallState} {vs : List (Served σ)}
    (h : Reach (c.party pc) (Served.party pc api token sessionId) us vs
      ⟨.writePrelude, .start c.tls d, [], []⟩
      ⟨.returned (.error c.refusal), serving authenticated d [] .read, [], []⟩)
    (hleft : ∀ s ∈ CallState.writePrelude :: us, ∀ ok, ¬ s.Succeeded ok)
    (hright : ∀ v ∈ Served.start c.tls d :: vs, v.Idle d) : c.Settles pc api token sessionId d := by
  have hall := h.trans (.hangUp rfl act_read (Reader.read_short rfl rfl))
  refine ⟨_, _, _, hall, ⟨rfl, rfl⟩, ⟨fun hauth => absurd hauth hnot, fun _ => ⟨rfl, rfl, rfl⟩⟩,
    fun ss ts d' hreach => ?_⟩
  obtain ⟨hss, hts, -⟩ := hall.completes ⟨rfl, rfl⟩ hreach
  constructor
  · have hmem := (List.cons_subset_cons (Served.start c.tls d) hts.subset) hreach.right_mem
    rw [← List.cons_append] at hmem
    obtain hmem | hmem := List.mem_append.1 hmem
    · exact .inl (hright _ hmem)
    · rw [List.mem_singleton.1 hmem]
      exact .inl ⟨rfl, rfl⟩
  · have hmem := (List.cons_subset_cons CallState.writePrelude hss.subset) hreach.left_mem
    rw [List.append_nil] at hmem
    exact fun ok hs => absurd hs (hleft _ hmem ok)

theorem authenticate_eq (supplied expected : Bytes) : authenticate supplied expected =
    if supplied = expected then .ok .authenticated else .err "authentication failed" := by
  rw [authenticate]
  by_cases h : supplied = expected
  · rw [if_pos ((constantTimeEq_iff _ _).2 h), if_pos h]
  · rw [if_neg (fun hc => h ((constantTimeEq_iff _ _).1 hc)), if_neg h]

theorem not_succeeded_afterWelcome (c : CtlCall) (ok : RpcOk) : ¬ c.afterWelcome.Succeeded ok := by
  rw [CtlCall.afterWelcome]
  split
  · rintro (h | h) <;> cases h
  · split
    · rintro (h | h) <;> cases h
    · rintro (h | h) <;> cases h

/-- The states of the greeting. -/
theorem not_succeeded_greeting (c : CtlCall) : ∀ s ∈ CallState.writePrelude ::
    [.readPrelude, .writeHello, .readWelcome, c.afterWelcome], ∀ ok, ¬ s.Succeeded ok := by
  simp only [List.forall_mem_cons, List.not_mem_nil, false_imp_iff, implies_true, and_true]
  refine ⟨?_, ?_, ?_, ?_, not_succeeded_afterWelcome c⟩ <;> rintro ok (h | h) <;> cases h

theorem idle_greeting (d : σ) (tls : Bool) (frame : Bytes) : ∀ v ∈ Served.start tls d ::
    [{ Served.start tls d with stage := .writePrelude }, { Served.start tls d with stage := .read },
      serving tls d [] (.answer frame), serving tls d [] .read], v.Idle d := by
  simp [Served.Idle, Served.start, Session.start, serving]

/-- A call comes to its end. -/
theorem settles (hfits : ∀ msg ∈ c.messages api token sessionId d, msg.Fits pc) :
    c.Settles pc api token sessionId d := by
  obtain ⟨greeting, hgreeting⟩ := reach_greeting api token c d
    (hfits (.hello buildCtlHello) (by simp [CtlCall.messages]))
    (hfits (.welcome (buildWelcome sessionId)) (by simp [CtlCall.messages])) c.tls
  have hleft := not_succeeded_greeting c
  have hright := idle_greeting d c.tls greeting
  cases htls : c.tls with
  | true =>
    have hnext : c.afterWelcome = .writeRequest c.request none := by
      rw [CtlCall.afterWelcome, if_pos htls]
    refine settles_of_method hfits (.inl htls) ?_ hleft hright
    rwa [hnext, htls] at hgreeting ⊢
  | false =>
    cases htoken : c.token with
    | error e =>
      have hnext : c.afterWelcome = .returned (.error c.refusal) := by
        rw [CtlCall.afterWelcome, CtlCall.refusal, htls, htoken]
        rfl
      rw [hnext] at hgreeting hleft
      refine settles_of_refused ?_ hgreeting hleft hright
      rintro (h | ⟨supplied, h, -⟩)
      · rw [htls] at h
        cases h
      · rw [htoken] at h
        cases h
    | ok supplied =>
      have hnext : c.afterWelcome =
          .writeRequest { id := 1, method := .authenticate supplied } (some c.request) := by
        rw [CtlCall.afterWelcome, htls, htoken]
        rfl
      rw [hnext, htls] at hgreeting
      rw [hnext] at hleft
      rw [htls] at hright
      obtain ⟨answer, hround⟩ := reach_authenticate api sessionId c d
        (hfits (.rpcRequest { id := 1, method := .authenticate supplied })
          (by simp [CtlCall.messages, htoken]))
        (hfits (.rpcResponse { id := 1, result := authenticate (bytesOf supplied) (bytesOf token) })
          (by simp [CtlCall.messages, htoken]))
      have hall := hgreeting.trans hround
      have hidle : ∀ v ∈ [serving (RpcResult.isOk (authenticate (bytesOf supplied) (bytesOf token))) d []
          (.answer answer), serving (RpcResult.isOk (authenticate (bytesOf supplied) (bytesOf token))) d []
          .read], v.Idle d := by
        simp [Served.Idle, serving]
      have hright' := List.forall_mem_append.2 ⟨hright, hidle⟩
      rw [authenticate_eq] at hall hright'
      rw [← htls] at hall hright'
      by_cases hsame : bytesOf supplied = bytesOf token
      · rw [if_pos hsame] at hall hright'
        refine settles_of_method hfits (.inr ⟨supplied, htoken, hsame⟩) hall ?_ hright'
        refine List.forall_mem_append.2 ⟨hleft, ?_⟩
        simp only [List.forall_mem_cons, List.not_mem_nil, false_imp_iff, implies_true, and_true]
        constructor <;> rintro ok (h | h) <;> cases h
      · rw [if_neg hsame] at hall hright'
        have hlast : onResponse (some c.request) (.ok (.rpcResponse
            { id := 1, result := .err "authentication failed" })) = .returned (.error c.refusal) := by
          rw [CtlCall.refusal, htoken]
          rfl
        rw [hlast] at hall
        refine settles_of_refused ?_ hall ?_ hright'
        · rintro (h | ⟨supplied', h, hsame'⟩)
          · rw [htls] at h
            cases h
          · rw [htoken] at h
            cases h
            exact hsame hsame'
        · refine List.forall_mem_append.2 ⟨hleft, ?_⟩
          simp only [List.forall_mem_cons, List.not_mem_nil, false_imp_iff, implies_true, and_true]
          constructor <;> rintro ok (h | h) <;> cases h

/-! ## Delays and failures -/

/-- A daemon that counts the instances that it stops. -/
def stopCounter : DaemonApi Nat where
  processId := 1
  summaries d := (d, [])
  startInstance _ _ _ _ d := (d, .error ["no such instance"])
  stopInstance _ d := (d + 1, .ok ())
  launchApp _ _ _ _ d := (d, .error ["no such instance"])
  waitSocket _ _ d := (d, .ok ())
  quicCertSha256 _ d := (d, .ok none)
  debug s := s

def stopCall : CtlCall := { tls := false, token := .ok "hex", method := .stopInstance "dev" }

theorem fits_stopCall : ∀ msg ∈ stopCall.messages stopCounter "hex" 1 0, msg.Fits messageWire := by
  decide +kernel

/-- **A call ends, and returns what the daemon answers.** Whatever the delays, if nothing fails the call
comes to an end. An authorized client then has the daemon's answer to the method, which the daemon has
executed; any other client is refused, and the daemon is as it was. -/
theorem call_ends (hfits : ∀ msg ∈ c.messages api token sessionId d, msg.Fits pc) :
    (Net.start .writePrelude (.start c.tls d)).Ends (c.party pc)
      (Served.party pc api token sessionId) fun n => c.Ended api token d n.left n.right := by
  obtain ⟨us, vs, fin, hreach, hover, hended, -⟩ := settles hfits
  exact (ends_of_reach (n := .start _ _) hover hreach).mono fun n h => h ▸ hended

theorem call_ends_stop : (Net.start .writePrelude (.start false 0)).Ends (stopCall.party messageWire)
    (Served.party messageWire stopCounter "hex" 1) fun n =>
      n.left = .returned (.ok .instanceStopped) ∧ n.right.session.daemon = 1 := by
  refine (call_ends fits_stopCall).mono fun n h => ?_
  obtain ⟨hleft, hright⟩ := h.1 (.inr ⟨"hex", rfl, rfl⟩)
  exact ⟨hleft, hright.1⟩

/-- A call that succeeds although something failed has its answer. -/
theorem succeeded_of_fails {s s' s'' : CallState} {cut : Bytes} {ok : RpcOk}
    (h : (c.party pc).Fails s cut s') (hok : s' = .returned (.ok ok)) (hleads : (c.party pc).Leads s s'') :
    s''.Succeeded ok := by
  cases h with
  | send hact _ =>
    obtain ⟨e, rfl⟩ | ⟨ok', rfl, rfl, rfl⟩ := CtlCall.act_send pc hact
    · cases hok
    · cases hok
      obtain h | ⟨bs, failed, hact'⟩ := hleads
      · exact .inl h.symm
      · exact .inr (Action.send.inj (hact'.symm.trans hact)).2.1
  | recv bs hact =>
    obtain ⟨e, he⟩ := CtlCall.act_recv pc hact bs
    rw [he] at hok
    cases hok

theorem same_of_leads {v v' : Served σ} (h : (Served.party pc api token sessionId).Leads v v') :
    v'.session = v.session ∧ v'.calls = v.calls := by
  obtain rfl | ⟨bs, failed, hact⟩ := h
  · exact ⟨rfl, rfl⟩
  · rw [(Served.act_send pc api token sessionId hact).1]
    exact ⟨rfl, rfl⟩

theorem same_of_fails {v v' : Served σ} {cut : Bytes}
    (h : (Served.party pc api token sessionId).Fails v cut v') :
    v'.session = v.session ∧ v'.calls = v.calls := by
  cases h with
  | send hact _ =>
    rw [(Served.act_send pc api token sessionId hact).2]
    exact ⟨rfl, rfl⟩
  | recv bs hact =>
    rw [Served.act_recv pc api token sessionId hact bs]
    exact ⟨rfl, rfl⟩

/-- **At most once.** Whatever is delayed or fails, the daemon is as it was, or it has executed the
method once, and the client was authorized. A call that succeeds returns the daemon's answer, and the
daemon has executed it. -/
theorem call_at_most_once (hfits : ∀ msg ∈ c.messages api token sessionId d, msg.Fits pc)
    {n : Net CallState (Served σ)}
    (hrun : Relation.ReflTransGen
      (Net.FaultyStep (c.party pc) (Served.party pc api token sessionId))
      (.start .writePrelude (.start c.tls d)) n) :
    (n.right.Idle d ∨ (c.Authorized token ∧ n.right.Executed (c.dispatched api token d))) ∧
      ∀ ok, n.left = .returned (.ok ok) → c.Authorized token ∧
        (c.dispatched api token d).response.result = .ok ok ∧
          n.right.Executed (c.dispatched api token d) := by
  obtain ⟨us, vs, fin, -, -, -, hholds⟩ := settles hfits
  obtain ⟨ss, ts, d', htracks⟩ := Net.tracks_of_run _ hrun
  obtain ⟨hidle, hsucceeded⟩ := hholds ss ts d' htracks.reach
  have hsame : n.right.session = d'.right.session ∧ n.right.calls = d'.right.calls := by
    cases htracks.right with
    | up h => exact ⟨congrArg _ h, congrArg _ h⟩
    | failed _ hleads hfails =>
      exact ⟨(same_of_fails hfails).1.trans (same_of_leads hleads).1.symm,
        (same_of_fails hfails).2.trans (same_of_leads hleads).2.symm⟩
  rw [Served.Idle, Served.Executed, hsame.1, hsame.2]
  refine ⟨hidle, fun ok hok => hsucceeded ok ?_⟩
  cases htracks.left with
  | up h => exact .inr (h.symm.trans hok)
  | failed _ hleads hfails =>
    exact succeeded_of_fails hfails hok hleads

/-- The daemon has stopped the instance, and the connection breaks while it answers. -/
theorem stop_unanswered : ∃ n, Relation.ReflTransGen (Net.FaultyStep (stopCall.party messageWire)
      (Served.party messageWire stopCounter "hex" 1)) (.start .writePrelude (.start false 0)) n ∧
    n.left = .returned (.error (.frame connectionLost)) ∧ n.right.session.daemon = 1 := by
  obtain ⟨greeting, hgreeting⟩ := reach_greeting stopCounter "hex" stopCall 0
    (fits_stopCall (.hello buildCtlHello) (by simp [CtlCall.messages]))
    (fits_stopCall (.welcome (buildWelcome 1)) (by simp [CtlCall.messages])) false
  obtain ⟨answer, hround⟩ := reach_authenticate stopCounter 1 stopCall 0
    (fits_stopCall (.rpcRequest { id := 1, method := .authenticate "hex" })
      (by simp [CtlCall.messages, stopCall]))
    (fits_stopCall (.rpcResponse { id := 1, result := authenticate (bytesOf "hex") (bytesOf "hex") })
      (by simp [CtlCall.messages, stopCall]))
  obtain ⟨asked, hasked⟩ := fits_stopCall (.rpcRequest stopCall.request) (by simp [CtlCall.messages])
  obtain ⟨frame, hframe⟩ := fits_stopCall
    (.rpcResponse (stopCall.dispatched stopCounter "hex" 0).response) (by simp [CtlCall.messages])
  have hreads : (serving true 0 [] .read).onFrame messageWire stopCounter "hex" 1
      (.ok (.rpcRequest stopCall.request)) = serving true 1 [.stopInstance "dev"] (.answer frame) :=
    onFrame_request hframe
  have hasks : Reach (stopCall.party messageWire) (Served.party messageWire stopCounter "hex" 1)
      [.readResponse none] [serving true 1 [.stopInstance "dev"] (.answer frame)]
      ⟨.writeRequest stopCall.request none, serving true 0 [] .read, [], []⟩
      ⟨.readResponse none, serving true 1 [.stopInstance "dev"] (.answer frame), [], []⟩ :=
    .tell (act_writeFrame hasked) act_read
      (by rw [Reader.read_ok (readFrame_encodeFrame hasked), hreads])
  have hrun := Net.faultyRun_of_reach (hgreeting.trans (hround.trans hasks))
  exact ⟨_, (hrun.tail (.right (.send act_answer (List.take_prefix 3 frame)))).tail (.left (.recv [] rfl)),
    rfl, rfl⟩

theorem call_at_most_once_broken : ∃ n : Net CallState (Served Nat),
    n.left = .returned (.error (.frame connectionLost)) ∧ stopCall.Authorized "hex" ∧
      n.right.Executed (stopCall.dispatched stopCounter "hex" 0) := by
  obtain ⟨n, hrun, hleft, hright⟩ := stop_unanswered
  obtain ⟨hidle | hexecuted, -⟩ := call_at_most_once fits_stopCall hrun
  · rw [Served.Idle, hright] at hidle
    cases hidle.1
  · exact ⟨n, hleft, hexecuted⟩

end Conversation
end VBox.Controld
