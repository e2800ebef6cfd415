import VBox.Proto.Framing
import VBox.Controld.State
import VBox.Lib.Mealy
import Mathlib.Data.List.Forall2

/-!
# Controld.Session

A control session (`handle_session` and `dispatch` in `crates/controld/src/main.rs`): greeting, then a
loop that answers one message after another. Over plain TCP nothing but `Authenticate` is served until
the client has shown the shared secret.

The daemon behind the session is an arbitrary state with the operations that `dispatch` calls; every
call is logged.

* `constantTimeEq_iff`: the comparison of tokens is equality.
* `authenticated_iff`: the flag is set by the first right `Authenticate` and stays.
* `unauthenticated_noninterference`: before that, the answers do not depend on the daemon and no
  operation of it is called.
-/

namespace VBox.Controld

/-- The operations of `DaemonState` that `dispatch` calls, as functions of whatever the daemon and the
machine under it are. An error is its chain of causes. -/
structure DaemonApi (σ : Type) where
  processId : UInt32
  summaries : σ → σ × List InstanceSummary
  startInstance : String → UInt16 → Bool → Option QuicInstanceConfig → σ →
    σ × Except (List String) UInt32
  stopInstance : String → σ → σ × Except (List String) Unit
  launchApp : String → String → List String → UInt64 → σ → σ × Except (List String) UInt32
  waitSocket : String → UInt64 → σ → σ × Except (List String) Unit
  quicCertSha256 : String → σ → σ × Except (List String) (Option String)
  /-- `{:?}` of a string. -/
  debug : String → String

/-- A call of an operation. -/
inductive DaemonCall where
  | summaries
  | startInstance (name : String) (port : UInt16)
  | stopInstance (name : String)
  | launchApp (name : String)
  | waitSocket (socket : String)
  | quicCertSha256 (name : String)
  deriving DecidableEq

/-- The comparison has no early exit but the one on the lengths. -/
def constantTimeEq (a b : List UInt8) : Bool :=
  if a.length = b.length then
    (a.zip b).foldl (fun diff p => diff ||| (p.1 ^^^ p.2)) 0 == 0
  else false

def authenticate (supplied expected : List UInt8) : RpcResult :=
  if constantTimeEq supplied expected then .ok .authenticated else .err "authentication failed"

def RpcResult.isOk : RpcResult → Bool
  | .ok _ => true
  | .err _ => false

/-- The root cause of the chain stands on the first line, every other one on its own. -/
def formatErrChain : List String → String
  | [] => ""
  | cause :: causes => causes.foldl (fun out c => out ++ "\n  caused by: " ++ c) cause

/-- `e.context(label)`, formatted. -/
def failure (label : String) (e : List String) : RpcResult := .err (formatErrChain (label :: e))

def bytesOf (s : String) : List UInt8 := s.toByteArray.data.toList

def capabilitiesTcp : TransportCapabilities :=
  { reliableStreams := true, datagrams := false, multiAppChannels := false }

def capabilitiesQuicPhase1 : TransportCapabilities :=
  { reliableStreams := true, datagrams := true, multiAppChannels := true }

structure Dispatched (σ : Type) where
  daemon : σ
  calls : List DaemonCall
  authenticated : Bool
  response : RpcResponse

section Session

variable {σ : Type} (api : DaemonApi σ) (token : String)

def dispatch (d : σ) (req : RpcRequest) (authenticated : Bool) : Dispatched σ :=
  let reply (d : σ) (calls : List DaemonCall) (result : RpcResult) : Dispatched σ :=
    { daemon := d, calls, authenticated, response := { id := req.id, result } }
  match req.method, authenticated with
  | .authenticate supplied, _ =>
    let outcome := authenticate (bytesOf supplied) (bytesOf token)
    { reply d [] outcome with authenticated := authenticated || RpcResult.isOk outcome }
  | _, false => reply d [] (.err "not authenticated")
  | .status, true =>
    let (d, instances) := api.summaries d
    reply d [.summaries] (.ok (.status { daemonPid := api.processId, instances }))
  | .startInstance name port debug quicBind quicPort quicToken, true =>
    let quic := quicBind.map fun bind => { bind, port := quicPort, token := quicToken.getD "" }
    let (d, result) := api.startInstance name port debug quic d
    reply d [.startInstance name port] (match result with
      | .ok pid => .ok (.instanceStarted pid)
      | .error e => failure s!"start_instance(instance={name}, port={port})" e)
  | .stopInstance name, true =>
    let (d, result) := api.stopInstance name d
    reply d [.stopInstance name] (match result with
      | .ok () => .ok .instanceStopped
      | .error e => failure s!"stop_instance(instance={name})" e)
  | .launchApp name socket argv waitReadyMs, true =>
    let argv0 := api.debug (argv.head?.getD "")
    let (d, result) := api.launchApp name socket argv waitReadyMs d
    reply d [.launchApp name] (match result with
      | .ok pid => .ok (.appLaunched pid)
      | .error e =>
        failure s!"launch_app(instance={name}, socket={socket}, argv0={argv0}, wait_ready_ms={waitReadyMs})" e)
  | .waitSocket socket timeoutMs, true =>
    let (d, result) := api.waitSocket socket timeoutMs d
    reply d [.waitSocket socket] (match result with
      | .ok () => .ok .socketReady
      | .error e => failure s!"wait_socket(socket={socket}, timeout_ms={timeoutMs})" e)
  | .prepareDataPlane name tcpAddr quicAddr sessionToken, true =>
    let capabilities := if quicAddr.isSome then capabilitiesQuicPhase1 else capabilitiesTcp
    let bundle (cert : Option String) : RpcResult :=
      .ok (.dataPlanePrepared
        { tcpAddr, quicAddr, sessionToken, quicServerCertSha256 := cert, capabilities })
    match name with
    | none => reply d [] (bundle none)
    | some name =>
      let (d, cert) := api.quicCertSha256 name d
      reply d [.quicCertSha256 name] (bundle (match cert with
        | .ok cert => cert
        | .error _ => none))

/-! ## The session -/

inductive SessionAction where
  | pong (seq stampNs : UInt64)
  | close (reason : String)
  | rpc
  | unexpected (kind : Kind)

def decideSessionAction : Message → SessionAction
  | .ping m => .pong m.seq m.stampNs
  | .goodbye m => .close m.reason
  | .rpcRequest _ => .rpc
  | other => .unexpected other.kind

def unexpectedMessageError (kind : Kind) : ProtoError :=
  { code := 400, message := s!"unexpected message kind: {kind.debug}" }

def buildWelcome (sessionId : UInt64) : Welcome :=
  { protocolVersion, serverName := "vbox-controld/0.1.3", sessionId }

/-- None accepts. -/
def checkProtocolVersion (clientProto : UInt16) : Option ProtoError :=
  if clientProto = protocolVersion then none
  else some { code := 426,
              message := s!"protocol version mismatch: client={clientProto}, daemon={protocolVersion}" }

inductive SessionPhase where
  | greeting
  | serving
  | closed
  deriving DecidableEq

structure Session (σ : Type) where
  phase : SessionPhase
  authenticated : Bool
  daemon : σ

/-- Over TLS the handshake has authenticated the client. -/
def Session.start (tls : Bool) (d : σ) : Session σ :=
  { phase := .greeting, authenticated := tls, daemon := d }

/-- A message of the client, and whether what is written in answer to it can be written. -/
structure Inbound where
  message : Message
  writable : Bool

/-- What goes out, and the operations that were called. -/
structure Answer where
  replies : List Message
  calls : List DaemonCall

/-- Write a frame and go on; a failed write ends the session. -/
def Session.write (s : Session σ) (writable : Bool) (phase : SessionPhase)
    (calls : List DaemonCall) (reply : Message) : Session σ × Answer :=
  if writable then ({ s with phase }, { replies := [reply], calls })
  else ({ s with phase := .closed }, { replies := [], calls })

/-- `handle_session`, one message at a time. -/
def Session.step (sessionId : UInt64) (s : Session σ) (i : Inbound) : Session σ × Answer :=
  match s.phase with
  | .greeting =>
    match i.message with
    | .hello h =>
      match checkProtocolVersion h.protocolVersion with
      | none => s.write i.writable .serving [] (.welcome (buildWelcome sessionId))
      | some err => s.write i.writable .closed [] (.error err)
    | _ => ({ s with phase := .closed }, { replies := [], calls := [] })
  | .serving =>
    match decideSessionAction i.message with
    | .pong seq stampNs => s.write i.writable .serving [] (.pong { seq, stampNs })
    | .close _ => ({ s with phase := .closed }, { replies := [], calls := [] })
    | .rpc =>
      match i.message with
      | .rpcRequest req =>
        let r := dispatch api token s.daemon req s.authenticated
        Session.write { s with authenticated := r.authenticated, daemon := r.daemon } i.writable
          .serving r.calls (.rpcResponse r.response)
      -- `decide_session_action` only returns `Rpc` for a request
      | _ => (s, { replies := [], calls := [] })
    | .unexpected kind => s.write i.writable .serving [] (.error (unexpectedMessageError kind))
  | .closed => (s, { replies := [], calls := [] })

end Session

/-! ## The token -/

theorem foldl_or_eq_zero (ps : List (UInt8 × UInt8)) (diff : UInt8) :
    ps.foldl (fun diff p => diff ||| (p.1 ^^^ p.2)) diff = 0 ↔
      diff = 0 ∧ ∀ p ∈ ps, p.1 = p.2 := by
  induction ps generalizing diff with
  | nil => simp
  | cons p ps ih =>
    rw [List.foldl_cons, ih, UInt8.or_eq_zero_iff, UInt8.xor_eq_zero_iff, List.forall_mem_cons,
      and_assoc]

theorem constantTimeEq_iff (a b : List UInt8) : constantTimeEq a b = true ↔ a = b := by
  rw [constantTimeEq]
  split
  · rename_i hlength
    rw [beq_iff_eq, foldl_or_eq_zero, eq_self, true_and, ← List.forall₂_eq_eq_eq,
      List.forall₂_iff_zip, and_iff_right hlength, Prod.forall]
  · rename_i hlength
    exact iff_of_false (by simp) fun h => hlength (h ▸ rfl)

theorem isOk_authenticate (supplied expected : List UInt8) :
    RpcResult.isOk (authenticate supplied expected) = true ↔ supplied = expected := by
  rw [← constantTimeEq_iff, authenticate]
  cases constantTimeEq supplied expected <;> simp [RpcResult.isOk]

/-- An `Authenticate` with the bytes of the expected token. -/
def IsAuthenticate (token : String) (m : Message) : Prop :=
  ∃ id supplied, m = .rpcRequest { id, method := .authenticate supplied } ∧
    bytesOf supplied = bytesOf token

section Runs

variable {σ : Type} {api : DaemonApi σ} {token : String} {sessionId : UInt64}

theorem write_authenticated (s : Session σ) (writable : Bool) (phase : SessionPhase)
    (calls : List DaemonCall) (reply : Message) :
    (s.write writable phase calls reply).1.authenticated = s.authenticated := by
  rw [Session.write]
  split <;> rfl

theorem isAuthenticate_request {req : RpcRequest} :
    IsAuthenticate token (.rpcRequest req) ↔
      ∃ supplied, req.method = .authenticate supplied ∧ bytesOf supplied = bytesOf token := by
  constructor
  · rintro ⟨id, supplied, heq, h⟩
    cases heq
    exact ⟨supplied, rfl, h⟩
  · rintro ⟨supplied, heq, h⟩
    exact ⟨req.id, supplied, by rw [← heq], h⟩

theorem dispatch_authenticated (d : σ) (req : RpcRequest) (authenticated : Bool) :
    (dispatch api token d req authenticated).authenticated = true ↔
      authenticated = true ∨ IsAuthenticate token (.rpcRequest req) := by
  rw [isAuthenticate_request]
  obtain ⟨id, method⟩ := req
  cases method with
  | authenticate supplied => simp [dispatch, isOk_authenticate]
  | prepareDataPlane name => cases authenticated <;> cases name <;> simp [dispatch]
  | status => cases authenticated <;> simp [dispatch]
  | startInstance => cases authenticated <;> simp [dispatch]
  | stopInstance => cases authenticated <;> simp [dispatch]
  | launchApp => cases authenticated <;> simp [dispatch]
  | waitSocket => cases authenticated <;> simp [dispatch]

/-- Every method but the right `Authenticate` is refused before the daemon is looked at. -/
theorem dispatch_refused (api : DaemonApi σ) {req : RpcRequest}
    (h : ¬ IsAuthenticate token (.rpcRequest req)) :
    ∃ response, ∀ d, dispatch api token d req false =
      { daemon := d, calls := [], authenticated := false, response } := by
  rw [isAuthenticate_request] at h
  obtain ⟨id, method⟩ := req
  cases method with
  | authenticate supplied =>
    refine ⟨{ id, result := authenticate (bytesOf supplied) (bytesOf token) }, fun d => ?_⟩
    have hwrong : RpcResult.isOk (authenticate (bytesOf supplied) (bytesOf token)) = false := by
      rw [Bool.eq_false_iff, Ne, isOk_authenticate]
      exact fun heq => h ⟨supplied, rfl, heq⟩
    simp only [dispatch, hwrong, Bool.or_false]
  | status => exact ⟨_, fun _ => rfl⟩
  | startInstance => exact ⟨_, fun _ => rfl⟩
  | stopInstance => exact ⟨_, fun _ => rfl⟩
  | launchApp => exact ⟨_, fun _ => rfl⟩
  | waitSocket => exact ⟨_, fun _ => rfl⟩
  | prepareDataPlane => exact ⟨_, fun _ => rfl⟩

/-! ### One message -/

/-- The answer to a message that is not a request in an open session is the same for all daemons. -/
theorem step_other (api : DaemonApi σ) (token : String) (sessionId : UInt64)
    (phase : SessionPhase) {i : Inbound}
    (h : phase = .serving → ∀ req, i.message ≠ .rpcRequest req) :
    ∃ phase' replies, ∀ (authenticated : Bool) (d : σ),
      Session.step api token sessionId { phase, authenticated, daemon := d } i =
        ({ phase := phase', authenticated, daemon := d }, { replies, calls := [] }) := by
  obtain ⟨message, writable⟩ := i
  cases phase with
  | closed => exact ⟨_, _, fun _ _ => rfl⟩
  | greeting =>
    cases message with
    | hello hello =>
      simp only [Session.step]
      cases checkProtocolVersion hello.protocolVersion <;> cases writable <;>
        exact ⟨_, _, fun _ _ => rfl⟩
    | _ => exact ⟨_, _, fun _ _ => rfl⟩
  | serving =>
    cases message with
    | rpcRequest req => exact absurd rfl (h rfl req)
    | goodbye => exact ⟨_, _, fun _ _ => rfl⟩
    | _ => cases writable <;> exact ⟨_, _, fun _ _ => rfl⟩

theorem step_request (authenticated : Bool) (d : σ) (req : RpcRequest) (writable : Bool) :
    Session.step api token sessionId { phase := .serving, authenticated, daemon := d }
        { message := .rpcRequest req, writable } =
      Session.write
        { phase := .serving,
          authenticated := (dispatch api token d req authenticated).authenticated,
          daemon := (dispatch api token d req authenticated).daemon }
        writable .serving (dispatch api token d req authenticated).calls
        (.rpcResponse (dispatch api token d req authenticated).response) := rfl

theorem step_authenticated (s : Session σ) (i : Inbound) :
    (s.step api token sessionId i).1.authenticated = true ↔
      s.authenticated = true ∨ (s.phase = .serving ∧ IsAuthenticate token i.message) := by
  obtain ⟨phase, authenticated, d⟩ := s
  by_cases h : phase = .serving → ∀ req, i.message ≠ .rpcRequest req
  · obtain ⟨phase', replies, hstep⟩ := step_other api token sessionId phase h
    have hother : ¬ (phase = .serving ∧ IsAuthenticate token i.message) := by
      rintro ⟨hphase, id, supplied, heq, -⟩
      exact h hphase _ heq
    rw [hstep, or_iff_left hother]
  · obtain ⟨message, writable⟩ := i
    simp only [not_forall, ne_eq, not_not, exists_prop] at h
    obtain ⟨rfl, req, rfl⟩ := h
    rw [step_request, write_authenticated, dispatch_authenticated]
    simp only [true_and]

/-- The answer to a client that has not authenticated itself is the same for all daemons. -/
theorem step_refused (api : DaemonApi σ) (sessionId : UInt64) (phase : SessionPhase) {i : Inbound}
    (h : ¬ IsAuthenticate token i.message) :
    ∃ phase' replies, ∀ d : σ,
      Session.step api token sessionId { phase, authenticated := false, daemon := d } i =
        ({ phase := phase', authenticated := false, daemon := d }, { replies, calls := [] }) := by
  by_cases hother : phase = .serving → ∀ req, i.message ≠ .rpcRequest req
  · obtain ⟨phase', replies, hstep⟩ := step_other api token sessionId phase hother
    exact ⟨phase', replies, hstep false⟩
  · obtain ⟨message, writable⟩ := i
    simp only [not_forall, ne_eq, not_not, exists_prop] at hother
    obtain ⟨rfl, req, rfl⟩ := hother
    obtain ⟨response, hdispatch⟩ := dispatch_refused api h
    cases writable with
    | false =>
      refine ⟨.closed, [], fun d => ?_⟩
      rw [step_request, hdispatch]
      rfl
    | true =>
      refine ⟨.serving, [.rpcResponse response], fun d => ?_⟩
      rw [step_request, hdispatch]
      rfl

/-! ### Whole sessions -/

variable (api token sessionId)

/-- The session after some messages. -/
def sessionAfter (tls : Bool) (d : σ) (inbound : List Inbound) : Session σ :=
  Mealy.state (Session.step api token sessionId) (.start tls d) inbound

/-- What the client is sent. -/
def sessionReplies (tls : Bool) (d : σ) (inbound : List Inbound) : List Message :=
  (Mealy.outputs (Session.step api token sessionId) (.start tls d) inbound).flatMap (·.replies)

/-- The operations of the daemon that a session calls. -/
def sessionCalls (tls : Bool) (d : σ) (inbound : List Inbound) : List DaemonCall :=
  (Mealy.outputs (Session.step api token sessionId) (.start tls d) inbound).flatMap (·.calls)

variable {api token sessionId}

theorem outputs_refused (api : DaemonApi σ) (sessionId : UInt64) {inbound : List Inbound}
    (phase : SessionPhase) (h : ∀ i ∈ inbound, ¬ IsAuthenticate token i.message) :
    ∃ replies : List (List Message), ∀ d : σ,
      (Mealy.outputs (Session.step api token sessionId)
          { phase, authenticated := false, daemon := d } inbound =
        replies.map fun rs => { replies := rs, calls := [] }) ∧
      (Mealy.state (Session.step api token sessionId)
        { phase, authenticated := false, daemon := d } inbound).daemon = d := by
  induction inbound generalizing phase with
  | nil => exact ⟨[], fun _ => ⟨rfl, rfl⟩⟩
  | cons i inbound ih =>
    rw [List.forall_mem_cons] at h
    obtain ⟨phase', replies, hstep⟩ := step_refused api sessionId phase h.1
    obtain ⟨rest, hrest⟩ := ih phase' h.2
    refine ⟨replies :: rest, fun d => ?_⟩
    rw [Mealy.outputs, Mealy.state, hstep, (hrest d).1, List.map_cons]
    exact ⟨rfl, (hrest d).2⟩

theorem authenticated_iff (d : σ) (inbound : List Inbound) :
    (sessionAfter api token sessionId false d inbound).authenticated = true ↔
      ∃ before i after, inbound = before ++ i :: after ∧
        (sessionAfter api token sessionId false d before).phase = .serving ∧
        IsAuthenticate token i.message := by
  induction inbound using List.reverseRecOn with
  | nil =>
    refine iff_of_false (by simp [sessionAfter, Session.start]) ?_
    rintro ⟨before, i, after, heq, -⟩
    simp at heq
  | append_singleton past last ih =>
    rw [sessionAfter, Mealy.state_concat, step_authenticated, ← sessionAfter, ih]
    constructor
    · rintro (⟨before, i, after, rfl, hserving, hauth⟩ | ⟨hserving, hauth⟩)
      · exact ⟨before, i, after ++ [last], by simp, hserving, hauth⟩
      · exact ⟨past, last, [], rfl, hserving, hauth⟩
    · rintro ⟨before, i, after, heq, hserving, hauth⟩
      -- the right `Authenticate` is the last message or one before it
      rcases List.eq_nil_or_concat after with rfl | ⟨after, last', rfl⟩
      · obtain ⟨rfl, hlast⟩ := List.append_inj' heq rfl
        obtain rfl := List.singleton_inj.1 hlast
        exact .inr ⟨hserving, hauth⟩
      · rw [List.concat_eq_append, ← List.cons_append, ← List.append_assoc] at heq
        obtain ⟨rfl, -⟩ := List.append_inj' heq rfl
        exact .inl ⟨before, i, after, rfl, hserving, hauth⟩

/-- **A client that does not know the token learns and does nothing**: over plain TCP, as long as no
`Authenticate` has the bytes of the token, the replies are the same for all daemons, no operation is
called and the daemon is as it was. The flag is set by the first such `Authenticate` that an open
session gets, and stays set. The comparison of tokens is equality. -/
theorem unauthenticated_noninterference (api : DaemonApi σ) (token : String) (sessionId : UInt64) :
    (∀ inbound : List Inbound, (∀ i ∈ inbound, ¬ IsAuthenticate token i.message) → ∀ d₁ d₂ : σ,
      sessionReplies api token sessionId false d₁ inbound =
        sessionReplies api token sessionId false d₂ inbound ∧
      sessionCalls api token sessionId false d₁ inbound = [] ∧
      (sessionAfter api token sessionId false d₁ inbound).daemon = d₁) ∧
    (∀ (d : σ) (inbound : List Inbound),
      (sessionAfter api token sessionId false d inbound).authenticated = true ↔
        ∃ before i after, inbound = before ++ i :: after ∧
          (sessionAfter api token sessionId false d before).phase = .serving ∧
          IsAuthenticate token i.message) ∧
    (∀ (d : σ) (past later : List Inbound),
      (sessionAfter api token sessionId false d past).authenticated = true →
        (sessionAfter api token sessionId false d (past ++ later)).authenticated = true) ∧
    ∀ a b : List UInt8, constantTimeEq a b = true ↔ a = b := by
  refine ⟨fun inbound h d₁ d₂ => ?_, authenticated_iff, fun d past later h => ?_, constantTimeEq_iff⟩
  · obtain ⟨replies, hrun⟩ := outputs_refused api sessionId .greeting h
    refine ⟨?_, ?_, (hrun d₁).2⟩
    · rw [sessionReplies, sessionReplies, Session.start, Session.start, (hrun d₁).1, (hrun d₂).1]
    · rw [sessionCalls, Session.start, (hrun d₁).1, List.flatMap_map]
      exact List.flatMap_eq_nil_iff.2 fun _ _ => rfl
  · obtain ⟨before, i, after, rfl, hserving, hauth⟩ := (authenticated_iff d past).1 h
    exact (authenticated_iff d _).2 ⟨before, i, after ++ later, by simp, hserving, hauth⟩

end Runs

end VBox.Controld
