import VBox.Lib.Codec

/-!
# Proto.Message

The wire data types of `crates/proto`, field for field, and the `Kind` tag every frame repeats
outside its payload.

Rust's `u16`, `u32`, `u64`, `i32` are Lean's `UInt16`, `UInt32`, `UInt64`, `Int32`; `Vec<u8>` is a
list of bytes; `f32` is kept as its bit pattern, since the protocol only copies it. Socket
addresses hold what serde writes of them: the octets and the port (an IPv6 flow label and scope
are not sent).
-/

namespace VBox

open ByteCodec (Bytes)

/-! ## Handshake -/

structure Hello where
  protocolVersion : UInt16
  clientName : String
  deriving DecidableEq

structure Welcome where
  protocolVersion : UInt16
  serverName : String
  sessionId : UInt64
  deriving DecidableEq

structure Goodbye where
  reason : String
  deriving DecidableEq

structure Ping where
  seq : UInt64
  stampNs : UInt64
  deriving DecidableEq

structure Pong where
  seq : UInt64
  stampNs : UInt64
  deriving DecidableEq

structure ProtoError where
  code : UInt16
  message : String
  deriving DecidableEq

structure ViewRequest where
  socketName : String
  width : UInt32
  height : UInt32
  deriving DecidableEq

/-! ## Windows -/

structure WindowGeometry where
  x : Int32
  y : Int32
  w : UInt32
  h : UInt32
  deriving DecidableEq

inductive WindowEvent where
  | created (id : UInt64) (geom : WindowGeometry) (title appId : String)
  | configured (id : UInt64) (geom : WindowGeometry)
  | destroyed (id : UInt64)
  | titleChanged (id : UInt64) (title : String)
  | minimized (id : UInt64)
  | moveRequested (id : UInt64)
  | fullscreenChanged (id : UInt64) (fullscreen : Bool)
  deriving DecidableEq

inductive PixelEncoding where
  | rawRgba
  | zstdRgba
  deriving DecidableEq

/-- `stride` is the number of bytes per row of `bytes`, after applying `encoding`. -/
structure FrameTile where
  id : UInt64
  x : UInt32
  y : UInt32
  w : UInt32
  h : UInt32
  stride : UInt32
  encoding : PixelEncoding
  bytes : Bytes
  deriving DecidableEq

/-! ## Input -/

inductive InputButtonState where
  | pressed
  | released
  deriving DecidableEq

inductive InputKeyState where
  | pressed
  | released
  deriving DecidableEq

inductive InputEvent where
  | pointerMotion (id : UInt64) (x y : Int32)
  | pointerButton (id : UInt64) (button : UInt32) (state : InputButtonState)
  | pointerScroll (id : UInt64) (deltaXMillis deltaYMillis : Int32)
  | key (id : UInt64) (keycode : UInt32) (state : InputKeyState)
  | text (id : UInt64) (text : String)
  | focus (id : UInt64) (focused : Bool)
  | resize (id : UInt64) (width height : UInt32)
  | toggleMaximize (id : UInt64)
  | setFullscreen (id : UInt64) (fullscreen : Bool)
  | close (id : UInt64)
  | preedit (id : UInt64) (text : String) (cursorBegin cursorEnd : Int32)
  deriving DecidableEq

/-! ## Clipboard and volume -/

inductive ClipboardOrigin where
  | host
  | guest
  deriving DecidableEq

structure Clipboard where
  origin : ClipboardOrigin
  serial : UInt64
  text : String
  deriving DecidableEq

structure F32 where
  bits : UInt32
  deriving DecidableEq

structure VolumeChange where
  level : F32
  muted : Bool
  deriving DecidableEq

/-! ## Data plane -/

inductive IpAddr where
  | v4 (octets : List.Vector UInt8 4)
  | v6 (octets : List.Vector UInt8 16)
  deriving DecidableEq

inductive SocketAddr where
  | v4 (octets : List.Vector UInt8 4) (port : UInt16)
  | v6 (octets : List.Vector UInt8 16) (port : UInt16)
  deriving DecidableEq

structure TransportCapabilities where
  reliableStreams : Bool
  datagrams : Bool
  multiAppChannels : Bool
  deriving DecidableEq

structure BootstrapBundle where
  tcpAddr : SocketAddr
  quicAddr : Option SocketAddr
  sessionToken : String
  quicServerCertSha256 : Option String
  capabilities : TransportCapabilities
  deriving DecidableEq

structure DataPlaneAuth where
  token : String
  deriving DecidableEq

inductive DataPlaneChannelPurpose where
  | windowReliable
  deriving DecidableEq

structure DataPlaneChannel where
  channelId : UInt64
  purpose : DataPlaneChannelPurpose
  deriving DecidableEq

structure FrameTileHeader where
  id : UInt64
  x : UInt32
  y : UInt32
  w : UInt32
  h : UInt32
  stride : UInt32
  encoding : PixelEncoding
  deriving DecidableEq

structure FrameTileChunk where
  channelId : UInt64
  frameSeq : UInt64
  chunkIndex : UInt32
  chunkCount : UInt32
  totalLen : UInt32
  header : FrameTileHeader
  bytes : Bytes
  deriving DecidableEq

inductive DataPlaneDatagram where
  | frameTileChunk (chunk : FrameTileChunk)
  deriving DecidableEq

/-! ## Control plane -/

inductive RpcMethod where
  | authenticate (token : String)
  | status
  | startInstance (name : String) (port : UInt16) (debug : Bool) (quicBind : Option IpAddr)
      (quicPort : Option UInt16) (quicToken : Option String)
  | stopInstance (name : String)
  | launchApp (name : String) (socket : String) (argv : List String) (waitReadyMs : UInt64)
  | waitSocket (socket : String) (timeoutMs : UInt64)
  | prepareDataPlane (name : Option String) (tcpAddr : SocketAddr)
      (quicAddr : Option SocketAddr) (sessionToken : String)
  deriving DecidableEq

structure RpcRequest where
  id : UInt64
  method : RpcMethod
  deriving DecidableEq

structure InstanceSummary where
  name : String
  port : UInt16
  serverPid : UInt32
  appPids : List UInt32
  deriving DecidableEq

structure StatusReply where
  daemonPid : UInt32
  instances : List InstanceSummary
  deriving DecidableEq

inductive RpcOk where
  | authenticated
  | status (reply : StatusReply)
  | instanceStarted (pid : UInt32)
  | instanceStopped
  | appLaunched (pid : UInt32)
  | socketReady
  | dataPlanePrepared (bundle : BootstrapBundle)
  deriving DecidableEq

inductive RpcResult where
  | ok (value : RpcOk)
  | err (message : String)
  deriving DecidableEq

structure RpcResponse where
  id : UInt64
  result : RpcResult
  deriving DecidableEq

/-! ## The message and its tag -/

inductive Message where
  | hello (m : Hello)
  | welcome (m : Welcome)
  | goodbye (m : Goodbye)
  | ping (m : Ping)
  | pong (m : Pong)
  | error (m : ProtoError)
  | dataPlaneAuth (m : DataPlaneAuth)
  | dataPlaneChannel (m : DataPlaneChannel)
  | viewRequest (m : ViewRequest)
  | windowEvent (m : WindowEvent)
  | frameTile (m : FrameTile)
  | inputEvent (m : InputEvent)
  | rpcRequest (m : RpcRequest)
  | rpcResponse (m : RpcResponse)
  | clipboard (m : Clipboard)
  | volumeChange (m : VolumeChange)
  deriving DecidableEq

inductive Kind where
  | hello
  | welcome
  | goodbye
  | viewRequest
  | ping
  | pong
  | error
  | dataPlaneAuth
  | dataPlaneChannel
  | windowEvent
  | frameTile
  | inputEvent
  | imeEvent
  | rpcRequest
  | rpcResponse
  | clipboard
  | volumeChange
  deriving DecidableEq, Repr

namespace Kind

/-- The `repr(u32)` discriminants, i.e. what `kind as u32` writes. -/
def toU32 : Kind → UInt32
  | hello => 1
  | welcome => 2
  | goodbye => 3
  | viewRequest => 20
  | ping => 10
  | pong => 11
  | error => 90
  | dataPlaneAuth => 91
  | dataPlaneChannel => 92
  | windowEvent => 100
  | frameTile => 101
  | inputEvent => 200
  | imeEvent => 201
  | rpcRequest => 300
  | rpcResponse => 301
  | clipboard => 400
  | volumeChange => 410

/-- `Kind::from_u32`, a table of its own in the source. -/
def fromU32 (n : UInt32) : Option Kind :=
  match n.toNat with
  | 1 => some hello
  | 2 => some welcome
  | 3 => some goodbye
  | 10 => some ping
  | 11 => some pong
  | 20 => some viewRequest
  | 90 => some error
  | 91 => some dataPlaneAuth
  | 92 => some dataPlaneChannel
  | 100 => some windowEvent
  | 101 => some frameTile
  | 200 => some inputEvent
  | 201 => some imeEvent
  | 300 => some rpcRequest
  | 301 => some rpcResponse
  | 400 => some clipboard
  | 410 => some volumeChange
  | _ => none

@[simp] theorem fromU32_toU32 (k : Kind) : fromU32 k.toU32 = some k := by
  cases k <;> rfl

/-- The two tables are inverse: an accepted tag is the tag of the kind it is read as. -/
theorem toU32_of_fromU32 {n : UInt32} {k : Kind} (h : fromU32 n = some k) : k.toU32 = n := by
  apply UInt32.toNat_inj.mp
  unfold fromU32 at h
  split at h <;> first
    | (rename_i hn; cases h; exact hn.symm)
    | cases h

end Kind

namespace Message

/-- `Message::kind`, the third copy of the tag table. -/
def kind : Message → Kind
  | hello _ => .hello
  | welcome _ => .welcome
  | goodbye _ => .goodbye
  | viewRequest _ => .viewRequest
  | ping _ => .ping
  | pong _ => .pong
  | error _ => .error
  | dataPlaneAuth _ => .dataPlaneAuth
  | dataPlaneChannel _ => .dataPlaneChannel
  | windowEvent _ => .windowEvent
  | frameTile _ => .frameTile
  | inputEvent _ => .inputEvent
  | rpcRequest _ => .rpcRequest
  | rpcResponse _ => .rpcResponse
  | clipboard _ => .clipboard
  | volumeChange _ => .volumeChange

end Message
end VBox
