import VBox.Proto.Message
import Mathlib.Data.Fintype.Basic
import Mathlib.Tactic.FinCases

/-!
# Proto.Wire

The serialiser behind the protocol. `vbox` hands every message to the `postcard` crate, which is
not part of the repository, so the model takes it as a parameter: a `Postcard α` is a pair of
functions of which only the round trip is known. (`to_allocvec` can fail only on a sequence of
unknown length, which no wire type has; the round trip rules a failure out.)

The second half writes the format down for the protocol's types, as postcard documents it:
integers are varints (`i32` zigzag first), `bool` and `u8` one byte, `f32` its four bytes, a
string or vector its length and its elements, an option a tag byte, a struct its fields in order,
an enum its variant index and its fields. `Wire.message` and `Wire.datagram` show that the
assumption can be met, and fix the sizes of what is sent.
-/

namespace VBox

open ByteCodec

/-- Which of postcard's error codes a failed decode carries is never looked at. -/
inductive PostcardError where
  | malformed
  deriving DecidableEq, Repr

structure Postcard (α : Type) where
  toAllocvec : α → Bytes
  fromBytes : Bytes → Except PostcardError α
  fromBytes_toAllocvec : ∀ a, fromBytes (toAllocvec a) = .ok a

attribute [simp] Postcard.fromBytes_toAllocvec

/-- The serialiser's output is the shortest of the encodings its deserialiser accepts. -/
def Postcard.Shortest {α : Type} (pc : Postcard α) : Prop :=
  ∀ bs a, pc.fromBytes bs = .ok a → (pc.toAllocvec a).length ≤ bs.length

/-- `from_bytes` ignores what follows the value. -/
def Postcard.ofCodec {α : Type} (c : Codec α) : Postcard α where
  toAllocvec := c.encode
  fromBytes bs :=
    match c.decode bs with
    | none => .error .malformed
    | some (a, _) => .ok a
  fromBytes_toAllocvec := by
    intro a
    have := c.decode_encode a []
    rw [List.append_nil] at this
    rw [this]

theorem Postcard.ofCodec_shortest {α : Type} (c : Codec α) : (ofCodec c).Shortest := by
  intro bs a h
  simp only [ofCodec] at h
  split at h
  · cases h
  · rename_i a' rest hd; cases h
    have := c.shortest hd
    exact Nat.le_trans (Nat.le_add_right _ _) this

namespace Wire

open Codec

/-! ## Scalars, strings and options -/

def u16 : Codec UInt16 :=
  (varint 3 (2 ^ 16) (by decide) (by decide)).map
    ⟨UInt16.ofFin, UInt16.toFin, fun _ => rfl, fun _ => rfl⟩

def u32 : Codec UInt32 :=
  (varint 5 (2 ^ 32) (by decide) (by decide)).map
    ⟨UInt32.ofFin, UInt32.toFin, fun _ => rfl, fun _ => rfl⟩

def u64 : Codec UInt64 :=
  (varint 10 (2 ^ 64) (by decide) (by decide)).map
    ⟨UInt64.ofFin, UInt64.toFin, fun _ => rfl, fun _ => rfl⟩

/-- A variant index. -/
def variant (n : Nat) (h : n ≤ 128 ^ 5) : Codec (Fin n) := varint 5 n (by decide) h

def bool : Codec Bool :=
  byte.pmap
    (fun b => if b = 0 then some false else if b = 1 then some true else none)
    (fun b => if b then 1 else 0)
    (by
      intro a b
      cases b
      · by_cases h : a = 0
        · simp [h]
        · by_cases h1 : a = 1 <;> simp [h, h1, eq_comm]
      · by_cases h : a = 0
        · simp [h]
        · by_cases h1 : a = 1 <;> simp [h, h1, eq_comm])

/-- Sign moved to the lowest bit: `0, -1, 1, -2, 2, ...` become `0, 1, 2, 3, 4, ...`. -/
def zigzag : Fin (2 ^ 32) ≃ Int32 where
  toFun n := Int32.ofInt (if n.val % 2 = 0 then (n.val / 2 : Nat) else -((n.val / 2 : Nat) : Int) - 1)
  invFun i :=
    ⟨if 0 ≤ i.toInt then (2 * i.toInt).toNat else (-2 * i.toInt - 1).toNat, by
      have h1 := i.toInt_lt
      have h2 := i.le_toInt
      split <;> omega⟩
  left_inv := by
    intro n
    have hn := n.isLt
    have key : (Int32.ofInt (if n.val % 2 = 0 then (n.val / 2 : Nat)
        else -((n.val / 2 : Nat) : Int) - 1)).toInt =
        if n.val % 2 = 0 then ((n.val / 2 : Nat) : Int) else -((n.val / 2 : Nat) : Int) - 1 := by
      apply Int32.toInt_ofInt_of_le <;> split <;> omega
    apply Fin.ext
    simp only [key]
    split
    · rename_i h
      rw [if_pos (by omega)]; omega
    · rename_i h
      rw [if_neg (by omega)]; omega
  right_inv := by
    intro i
    have h1 := i.toInt_lt
    have h2 := i.le_toInt
    apply Int32.toInt_inj.mp
    by_cases h : 0 ≤ i.toInt
    · have he : (2 * i.toInt).toNat % 2 = 0 := by omega
      simp only [if_pos h, if_pos he]
      rw [Int32.toInt_ofInt_of_le] <;> omega
    · have he : ¬ (-2 * i.toInt - 1).toNat % 2 = 0 := by omega
      simp only [if_neg h, if_neg he]
      rw [Int32.toInt_ofInt_of_le] <;> omega

def i32 : Codec Int32 := (varint 5 (2 ^ 32) (by decide) (by decide)).map zigzag

/-- A string is a byte vector that holds UTF-8. -/
def str : Codec String :=
  (list byte).pmap
    (fun bs => String.fromUTF8? ⟨bs.toArray⟩)
    (fun s => s.toByteArray.data.toList)
    (by
      intro bs s
      simp only [String.fromUTF8?]
      constructor
      · intro h
        split at h
        · cases h; simp [String.fromUTF8]
        · cases h
      · rintro rfl
        have hs : (⟨s.toByteArray.data.toList.toArray⟩ : ByteArray) = s.toByteArray := rfl
        rw [dif_pos (by rw [hs]; exact s.isValidUTF8)]
        rfl)

/-- An option is a tag byte, then the value if there is one. -/
def opt {α : Type} (c : Codec α) : Codec (Option α) :=
  (sigma bool (P := fun b => if b then α else Unit)
    fun b => match b with
      | false => unit
      | true => c).map
    { toFun := fun p => match p with
        | ⟨false, _⟩ => none
        | ⟨true, a⟩ => some a
      invFun := fun o => match o with
        | none => ⟨false, ()⟩
        | some a => ⟨true, a⟩
      left_inv := by rintro ⟨b, p⟩; cases b <;> rfl
      right_inv := by intro o; cases o <;> rfl }

/-- `f32` is written as its four bytes, least significant first. -/
def f32 : Codec F32 :=
  (raw 4).map
    { toFun := fun v => ⟨u32FromBe v.toList.reverse⟩
      invFun := fun x => ⟨(u32ToBe x.bits).reverse, by simp⟩
      left_inv := by
        rintro ⟨l, hl⟩
        apply Subtype.ext
        show (u32ToBe (u32FromBe l.reverse)).reverse = l
        rw [u32ToBe_u32FromBe (by simpa using hl), List.reverse_reverse]
      right_inv := by
        intro x
        show (⟨u32FromBe (u32ToBe x.bits).reverse.reverse⟩ : F32) = x
        simp }

/-! ## Records without variants -/

def hello : Codec Hello :=
  (u16.prod str).map
    ⟨fun p => ⟨p.1, p.2⟩, fun m => (m.protocolVersion, m.clientName), fun _ => rfl, fun _ => rfl⟩

def welcome : Codec Welcome :=
  (u16.prod (str.prod u64)).map
    ⟨fun p => ⟨p.1, p.2.1, p.2.2⟩, fun m => (m.protocolVersion, m.serverName, m.sessionId),
      fun _ => rfl, fun _ => rfl⟩

def goodbye : Codec Goodbye := str.map ⟨Goodbye.mk, Goodbye.reason, fun _ => rfl, fun _ => rfl⟩

def ping : Codec Ping :=
  (u64.prod u64).map ⟨fun p => ⟨p.1, p.2⟩, fun m => (m.seq, m.stampNs), fun _ => rfl, fun _ => rfl⟩

def pong : Codec Pong :=
  (u64.prod u64).map ⟨fun p => ⟨p.1, p.2⟩, fun m => (m.seq, m.stampNs), fun _ => rfl, fun _ => rfl⟩

def protoError : Codec ProtoError :=
  (u16.prod str).map ⟨fun p => ⟨p.1, p.2⟩, fun m => (m.code, m.message), fun _ => rfl, fun _ => rfl⟩

def viewRequest : Codec ViewRequest :=
  (str.prod (u32.prod u32)).map
    ⟨fun p => ⟨p.1, p.2.1, p.2.2⟩, fun m => (m.socketName, m.width, m.height), fun _ => rfl,
      fun _ => rfl⟩

def windowGeometry : Codec WindowGeometry :=
  (i32.prod (i32.prod (u32.prod u32))).map
    ⟨fun p => ⟨p.1, p.2.1, p.2.2.1, p.2.2.2⟩, fun g => (g.x, g.y, g.w, g.h), fun _ => rfl,
      fun _ => rfl⟩

def volumeChange : Codec VolumeChange :=
  (f32.prod bool).map
    ⟨fun p => ⟨p.1, p.2⟩, fun m => (m.level, m.muted), fun _ => rfl, fun _ => rfl⟩

def transportCapabilities : Codec TransportCapabilities :=
  (bool.prod (bool.prod bool)).map
    ⟨fun p => ⟨p.1, p.2.1, p.2.2⟩, fun c => (c.reliableStreams, c.datagrams, c.multiAppChannels),
      fun _ => rfl, fun _ => rfl⟩

def dataPlaneAuth : Codec DataPlaneAuth :=
  str.map ⟨DataPlaneAuth.mk, DataPlaneAuth.token, fun _ => rfl, fun _ => rfl⟩

def instanceSummary : Codec InstanceSummary :=
  (str.prod (u16.prod (u32.prod (list u32)))).map
    ⟨fun p => ⟨p.1, p.2.1, p.2.2.1, p.2.2.2⟩, fun s => (s.name, s.port, s.serverPid, s.appPids),
      fun _ => rfl, fun _ => rfl⟩

def statusReply : Codec StatusReply :=
  (u32.prod (list instanceSummary)).map
    ⟨fun p => ⟨p.1, p.2⟩, fun r => (r.daemonPid, r.instances), fun _ => rfl, fun _ => rfl⟩

/-! ## Plain enumerations -/

def pixelEncoding : Codec PixelEncoding :=
  (variant 2 (by decide)).map
    { toFun := fun | 0 => .rawRgba | 1 => .zstdRgba
      invFun := fun | .rawRgba => 0 | .zstdRgba => 1
      left_inv := by decide
      right_inv := by intro e; cases e <;> rfl }

def inputButtonState : Codec InputButtonState :=
  (variant 2 (by decide)).map
    { toFun := fun | 0 => .pressed | 1 => .released
      invFun := fun | .pressed => 0 | .released => 1
      left_inv := by decide
      right_inv := by intro e; cases e <;> rfl }

def inputKeyState : Codec InputKeyState :=
  (variant 2 (by decide)).map
    { toFun := fun | 0 => .pressed | 1 => .released
      invFun := fun | .pressed => 0 | .released => 1
      left_inv := by decide
      right_inv := by intro e; cases e <;> rfl }

def clipboardOrigin : Codec ClipboardOrigin :=
  (variant 2 (by decide)).map
    { toFun := fun | 0 => .host | 1 => .guest
      invFun := fun | .host => 0 | .guest => 1
      left_inv := by decide
      right_inv := by intro e; cases e <;> rfl }

def dataPlaneChannelPurpose : Codec DataPlaneChannelPurpose :=
  (variant 1 (by decide)).map
    { toFun := fun | 0 => .windowReliable
      invFun := fun | .windowReliable => 0
      left_inv := by decide
      right_inv := by intro e; cases e; rfl }

/-! ## Records with enumerations inside -/

def frameTile : Codec FrameTile :=
  (u64.prod (u32.prod (u32.prod (u32.prod (u32.prod (u32.prod
    (pixelEncoding.prod (list byte)))))))).map
    ⟨fun p => ⟨p.1, p.2.1, p.2.2.1, p.2.2.2.1, p.2.2.2.2.1, p.2.2.2.2.2.1, p.2.2.2.2.2.2.1,
        p.2.2.2.2.2.2.2⟩,
      fun t => (t.id, t.x, t.y, t.w, t.h, t.stride, t.encoding, t.bytes), fun _ => rfl, fun _ => rfl⟩

def clipboard : Codec Clipboard :=
  (clipboardOrigin.prod (u64.prod str)).map
    ⟨fun p => ⟨p.1, p.2.1, p.2.2⟩, fun m => (m.origin, m.serial, m.text), fun _ => rfl, fun _ => rfl⟩

def dataPlaneChannel : Codec DataPlaneChannel :=
  (u64.prod dataPlaneChannelPurpose).map
    ⟨fun p => ⟨p.1, p.2⟩, fun m => (m.channelId, m.purpose), fun _ => rfl, fun _ => rfl⟩

def frameTileHeader : Codec FrameTileHeader :=
  (u64.prod (u32.prod (u32.prod (u32.prod (u32.prod (u32.prod pixelEncoding)))))).map
    ⟨fun p => ⟨p.1, p.2.1, p.2.2.1, p.2.2.2.1, p.2.2.2.2.1, p.2.2.2.2.2.1, p.2.2.2.2.2.2⟩,
      fun h => (h.id, h.x, h.y, h.w, h.h, h.stride, h.encoding), fun _ => rfl, fun _ => rfl⟩

def frameTileChunk : Codec FrameTileChunk :=
  (u64.prod (u64.prod (u32.prod (u32.prod (u32.prod (frameTileHeader.prod (list byte))))))).map
    ⟨fun p => ⟨p.1, p.2.1, p.2.2.1, p.2.2.2.1, p.2.2.2.2.1, p.2.2.2.2.2.1, p.2.2.2.2.2.2⟩,
      fun c => (c.channelId, c.frameSeq, c.chunkIndex, c.chunkCount, c.totalLen, c.header, c.bytes),
      fun _ => rfl, fun _ => rfl⟩

def dataPlaneDatagram : Codec DataPlaneDatagram :=
  ((variant 1 (by decide)).prod frameTileChunk).map
    { toFun := fun p => .frameTileChunk p.2
      invFun := fun | .frameTileChunk c => (0, c)
      left_inv := by rintro ⟨i, c⟩; fin_cases i; rfl
      right_inv := by rintro ⟨c⟩; rfl }

/-! ## Enumerations with fields -/

/-- What follows each variant index of `IpAddr`. -/
def IpAddrFields : Fin 2 → Type
  | 0 => List.Vector UInt8 4
  | 1 => List.Vector UInt8 16

def ipAddr : Codec IpAddr :=
  (sigma (variant 2 (by decide)) (P := IpAddrFields)
    fun i => match i with
      | 0 => raw 4
      | 1 => raw 16).map
    { toFun := fun p => match p with
        | ⟨0, p⟩ => .v4 p
        | ⟨1, p⟩ => .v6 p
      invFun := fun m => match m with
        | .v4 o => ⟨0, o⟩
        | .v6 o => ⟨1, o⟩
      left_inv := by rintro ⟨i, p⟩; fin_cases i <;> rfl
      right_inv := by intro m; cases m <;> rfl }

/-- What follows each variant index of `SocketAddr`. -/
def SocketAddrFields : Fin 2 → Type
  | 0 => List.Vector UInt8 4 × UInt16
  | 1 => List.Vector UInt8 16 × UInt16

def socketAddr : Codec SocketAddr :=
  (sigma (variant 2 (by decide)) (P := SocketAddrFields)
    fun i => match i with
      | 0 => (raw 4).prod u16
      | 1 => (raw 16).prod u16).map
    { toFun := fun p => match p with
        | ⟨0, p⟩ => .v4 p.1 p.2
        | ⟨1, p⟩ => .v6 p.1 p.2
      invFun := fun m => match m with
        | .v4 o port => ⟨0, (o, port)⟩
        | .v6 o port => ⟨1, (o, port)⟩
      left_inv := by rintro ⟨i, p⟩; fin_cases i <;> rfl
      right_inv := by intro m; cases m <;> rfl }

def bootstrapBundle : Codec BootstrapBundle :=
  (socketAddr.prod ((opt socketAddr).prod (str.prod ((opt str).prod transportCapabilities)))).map
    ⟨fun p => ⟨p.1, p.2.1, p.2.2.1, p.2.2.2.1, p.2.2.2.2⟩,
      fun b => (b.tcpAddr, b.quicAddr, b.sessionToken, b.quicServerCertSha256, b.capabilities),
      fun _ => rfl, fun _ => rfl⟩

/-- What follows each variant index of `WindowEvent`. -/
def WindowEventFields : Fin 7 → Type
  | 0 => UInt64 × WindowGeometry × String × String
  | 1 => UInt64 × WindowGeometry
  | 2 => UInt64
  | 3 => UInt64 × String
  | 4 => UInt64
  | 5 => UInt64
  | 6 => UInt64 × Bool

def windowEvent : Codec WindowEvent :=
  (sigma (variant 7 (by decide)) (P := WindowEventFields)
    fun i => match i with
      | 0 => u64.prod (windowGeometry.prod (str.prod str))
      | 1 => u64.prod windowGeometry
      | 2 => u64
      | 3 => u64.prod str
      | 4 => u64
      | 5 => u64
      | 6 => u64.prod bool).map
    { toFun := fun p => match p with
        | ⟨0, p⟩ => .created p.1 p.2.1 p.2.2.1 p.2.2.2
        | ⟨1, p⟩ => .configured p.1 p.2
        | ⟨2, p⟩ => .destroyed p
        | ⟨3, p⟩ => .titleChanged p.1 p.2
        | ⟨4, p⟩ => .minimized p
        | ⟨5, p⟩ => .moveRequested p
        | ⟨6, p⟩ => .fullscreenChanged p.1 p.2
      invFun := fun m => match m with
        | .created id geom title appId => ⟨0, (id, geom, title, appId)⟩
        | .configured id geom => ⟨1, (id, geom)⟩
        | .destroyed id => ⟨2, id⟩
        | .titleChanged id title => ⟨3, (id, title)⟩
        | .minimized id => ⟨4, id⟩
        | .moveRequested id => ⟨5, id⟩
        | .fullscreenChanged id fullscreen => ⟨6, (id, fullscreen)⟩
      left_inv := by rintro ⟨i, p⟩; fin_cases i <;> rfl
      right_inv := by intro m; cases m <;> rfl }

/-- What follows each variant index of `InputEvent`. -/
def InputEventFields : Fin 11 → Type
  | 0 => UInt64 × Int32 × Int32
  | 1 => UInt64 × UInt32 × InputButtonState
  | 2 => UInt64 × Int32 × Int32
  | 3 => UInt64 × UInt32 × InputKeyState
  | 4 => UInt64 × String
  | 5 => UInt64 × Bool
  | 6 => UInt64 × UInt32 × UInt32
  | 7 => UInt64
  | 8 => UInt64 × Bool
  | 9 => UInt64
  | 10 => UInt64 × String × Int32 × Int32

def inputEvent : Codec InputEvent :=
  (sigma (variant 11 (by decide)) (P := InputEventFields)
    fun i => match i with
      | 0 => u64.prod (i32.prod i32)
      | 1 => u64.prod (u32.prod inputButtonState)
      | 2 => u64.prod (i32.prod i32)
      | 3 => u64.prod (u32.prod inputKeyState)
      | 4 => u64.prod str
      | 5 => u64.prod bool
      | 6 => u64.prod (u32.prod u32)
      | 7 => u64
      | 8 => u64.prod bool
      | 9 => u64
      | 10 => u64.prod (str.prod (i32.prod i32))).map
    { toFun := fun p => match p with
        | ⟨0, p⟩ => .pointerMotion p.1 p.2.1 p.2.2
        | ⟨1, p⟩ => .pointerButton p.1 p.2.1 p.2.2
        | ⟨2, p⟩ => .pointerScroll p.1 p.2.1 p.2.2
        | ⟨3, p⟩ => .key p.1 p.2.1 p.2.2
        | ⟨4, p⟩ => .text p.1 p.2
        | ⟨5, p⟩ => .focus p.1 p.2
        | ⟨6, p⟩ => .resize p.1 p.2.1 p.2.2
        | ⟨7, p⟩ => .toggleMaximize p
        | ⟨8, p⟩ => .setFullscreen p.1 p.2
        | ⟨9, p⟩ => .close p
        | ⟨10, p⟩ => .preedit p.1 p.2.1 p.2.2.1 p.2.2.2
      invFun := fun m => match m with
        | .pointerMotion id x y => ⟨0, (id, x, y)⟩
        | .pointerButton id button state => ⟨1, (id, button, state)⟩
        | .pointerScroll id dx dy => ⟨2, (id, dx, dy)⟩
        | .key id keycode state => ⟨3, (id, keycode, state)⟩
        | .text id text => ⟨4, (id, text)⟩
        | .focus id focused => ⟨5, (id, focused)⟩
        | .resize id width height => ⟨6, (id, width, height)⟩
        | .toggleMaximize id => ⟨7, id⟩
        | .setFullscreen id fullscreen => ⟨8, (id, fullscreen)⟩
        | .close id => ⟨9, id⟩
        | .preedit id text b e => ⟨10, (id, text, b, e)⟩
      left_inv := by rintro ⟨i, p⟩; fin_cases i <;> rfl
      right_inv := by intro m; cases m <;> rfl }

/-- What follows each variant index of `RpcMethod`. -/
def RpcMethodFields : Fin 7 → Type
  | 0 => String
  | 1 => Unit
  | 2 => String × UInt16 × Bool × Option IpAddr × Option UInt16 × Option String
  | 3 => String
  | 4 => String × String × List String × UInt64
  | 5 => String × UInt64
  | 6 => Option String × SocketAddr × Option SocketAddr × String

def rpcMethod : Codec RpcMethod :=
  (sigma (variant 7 (by decide)) (P := RpcMethodFields)
    fun i => match i with
      | 0 => str
      | 1 => unit
      | 2 => str.prod (u16.prod (bool.prod ((opt ipAddr).prod ((opt u16).prod (opt str)))))
      | 3 => str
      | 4 => str.prod (str.prod ((list str).prod u64))
      | 5 => str.prod u64
      | 6 => (opt str).prod (socketAddr.prod ((opt socketAddr).prod str))).map
    { toFun := fun p => match p with
        | ⟨0, p⟩ => .authenticate p
        | ⟨1, _⟩ => .status
        | ⟨2, p⟩ => .startInstance p.1 p.2.1 p.2.2.1 p.2.2.2.1 p.2.2.2.2.1 p.2.2.2.2.2
        | ⟨3, p⟩ => .stopInstance p
        | ⟨4, p⟩ => .launchApp p.1 p.2.1 p.2.2.1 p.2.2.2
        | ⟨5, p⟩ => .waitSocket p.1 p.2
        | ⟨6, p⟩ => .prepareDataPlane p.1 p.2.1 p.2.2.1 p.2.2.2
      invFun := fun m => match m with
        | .authenticate token => ⟨0, token⟩
        | .status => ⟨1, ()⟩
        | .startInstance name port debug bind qport token => ⟨2, (name, port, debug, bind, qport, token)⟩
        | .stopInstance name => ⟨3, name⟩
        | .launchApp name socket argv ms => ⟨4, (name, socket, argv, ms)⟩
        | .waitSocket socket ms => ⟨5, (socket, ms)⟩
        | .prepareDataPlane name tcp quic token => ⟨6, (name, tcp, quic, token)⟩
      left_inv := by rintro ⟨i, p⟩; fin_cases i <;> rfl
      right_inv := by intro m; cases m <;> rfl }

def rpcRequest : Codec RpcRequest :=
  (u64.prod rpcMethod).map
    ⟨fun p => ⟨p.1, p.2⟩, fun r => (r.id, r.method), fun _ => rfl, fun _ => rfl⟩

/-- What follows each variant index of `RpcOk`. -/
def RpcOkFields : Fin 7 → Type
  | 0 => Unit
  | 1 => StatusReply
  | 2 => UInt32
  | 3 => Unit
  | 4 => UInt32
  | 5 => Unit
  | 6 => BootstrapBundle

def rpcOk : Codec RpcOk :=
  (sigma (variant 7 (by decide)) (P := RpcOkFields)
    fun i => match i with
      | 0 => unit
      | 1 => statusReply
      | 2 => u32
      | 3 => unit
      | 4 => u32
      | 5 => unit
      | 6 => bootstrapBundle).map
    { toFun := fun p => match p with
        | ⟨0, _⟩ => .authenticated
        | ⟨1, p⟩ => .status p
        | ⟨2, p⟩ => .instanceStarted p
        | ⟨3, _⟩ => .instanceStopped
        | ⟨4, p⟩ => .appLaunched p
        | ⟨5, _⟩ => .socketReady
        | ⟨6, p⟩ => .dataPlanePrepared p
      invFun := fun m => match m with
        | .authenticated => ⟨0, ()⟩
        | .status reply => ⟨1, reply⟩
        | .instanceStarted pid => ⟨2, pid⟩
        | .instanceStopped => ⟨3, ()⟩
        | .appLaunched pid => ⟨4, pid⟩
        | .socketReady => ⟨5, ()⟩
        | .dataPlanePrepared bundle => ⟨6, bundle⟩
      left_inv := by rintro ⟨i, p⟩; fin_cases i <;> rfl
      right_inv := by intro m; cases m <;> rfl }

/-- What follows each variant index of `RpcResult`. -/
def RpcResultFields : Fin 2 → Type
  | 0 => RpcOk
  | 1 => String

def rpcResult : Codec RpcResult :=
  (sigma (variant 2 (by decide)) (P := RpcResultFields)
    fun i => match i with
      | 0 => rpcOk
      | 1 => str).map
    { toFun := fun p => match p with
        | ⟨0, p⟩ => .ok p
        | ⟨1, p⟩ => .err p
      invFun := fun m => match m with
        | .ok value => ⟨0, value⟩
        | .err message => ⟨1, message⟩
      left_inv := by rintro ⟨i, p⟩; fin_cases i <;> rfl
      right_inv := by intro m; cases m <;> rfl }

def rpcResponse : Codec RpcResponse :=
  (u64.prod rpcResult).map
    ⟨fun p => ⟨p.1, p.2⟩, fun r => (r.id, r.result), fun _ => rfl, fun _ => rfl⟩

/-- What follows each variant index of `Message`. -/
def MessageFields : Fin 16 → Type
  | 0 => Hello
  | 1 => Welcome
  | 2 => Goodbye
  | 3 => Ping
  | 4 => Pong
  | 5 => ProtoError
  | 6 => DataPlaneAuth
  | 7 => DataPlaneChannel
  | 8 => ViewRequest
  | 9 => WindowEvent
  | 10 => FrameTile
  | 11 => InputEvent
  | 12 => RpcRequest
  | 13 => RpcResponse
  | 14 => Clipboard
  | ⟨_ + 15, _⟩ => VolumeChange

def message : Codec Message :=
  (sigma (variant 16 (by decide)) (P := MessageFields)
    fun i => match i with
      | 0 => hello
      | 1 => welcome
      | 2 => goodbye
      | 3 => ping
      | 4 => pong
      | 5 => protoError
      | 6 => dataPlaneAuth
      | 7 => dataPlaneChannel
      | 8 => viewRequest
      | 9 => windowEvent
      | 10 => frameTile
      | 11 => inputEvent
      | 12 => rpcRequest
      | 13 => rpcResponse
      | 14 => clipboard
      | ⟨_ + 15, _⟩ => volumeChange).map
    { toFun := fun p => match p with
        | ⟨0, p⟩ => .hello p
        | ⟨1, p⟩ => .welcome p
        | ⟨2, p⟩ => .goodbye p
        | ⟨3, p⟩ => .ping p
        | ⟨4, p⟩ => .pong p
        | ⟨5, p⟩ => .error p
        | ⟨6, p⟩ => .dataPlaneAuth p
        | ⟨7, p⟩ => .dataPlaneChannel p
        | ⟨8, p⟩ => .viewRequest p
        | ⟨9, p⟩ => .windowEvent p
        | ⟨10, p⟩ => .frameTile p
        | ⟨11, p⟩ => .inputEvent p
        | ⟨12, p⟩ => .rpcRequest p
        | ⟨13, p⟩ => .rpcResponse p
        | ⟨14, p⟩ => .clipboard p
        | ⟨⟨_ + 15, _⟩, p⟩ => .volumeChange p
      invFun := fun m => match m with
        | .hello m => ⟨0, m⟩
        | .welcome m => ⟨1, m⟩
        | .goodbye m => ⟨2, m⟩
        | .ping m => ⟨3, m⟩
        | .pong m => ⟨4, m⟩
        | .error m => ⟨5, m⟩
        | .dataPlaneAuth m => ⟨6, m⟩
        | .dataPlaneChannel m => ⟨7, m⟩
        | .viewRequest m => ⟨8, m⟩
        | .windowEvent m => ⟨9, m⟩
        | .frameTile m => ⟨10, m⟩
        | .inputEvent m => ⟨11, m⟩
        | .rpcRequest m => ⟨12, m⟩
        | .rpcResponse m => ⟨13, m⟩
        | .clipboard m => ⟨14, m⟩
        | .volumeChange m => ⟨15, m⟩
      left_inv := by rintro ⟨i, p⟩; fin_cases i <;> rfl
      right_inv := by intro m; cases m <;> rfl }

/-! ## Sizes

Upper bounds on the parts of an encoded tile, of which only the payload is not bounded by its
type. -/

theorem u32_length (n : UInt32) : (u32.encode n).length ≤ 5 :=
  encodeVarint_length_le (by decide) (Nat.lt_trans n.toNat_lt (by decide))

theorem u64_length (n : UInt64) : (u64.encode n).length ≤ 10 :=
  encodeVarint_length_le (by decide) (Nat.lt_trans n.toNat_lt (by decide))

theorem variant_length {n : Nat} (h : n ≤ 128 ^ 5) (i : Fin n) : ((variant n h).encode i).length ≤ 5 :=
  encodeVarint_length_le (by decide) (Nat.lt_of_lt_of_le i.isLt h)

theorem encodeAll_byte (bs : Bytes) : encodeAll byte bs = bs := by
  induction bs with
  | nil => rfl
  | cons b bs ih => rw [encodeAll, ih]; rfl

theorem bytes_length {bs : Bytes} (h : bs.length < 2 ^ 32) :
    ((list byte).encode bs).length ≤ 5 + bs.length := by
  have hn : (nat.encode bs.length).length ≤ 5 :=
    encodeVarint_length_le (by decide) (Nat.lt_trans h (by decide))
  simp only [list, encodeAll_byte, List.length_append]
  omega

theorem pixelEncoding_length (e : PixelEncoding) : (pixelEncoding.encode e).length ≤ 5 :=
  variant_length (by decide) _

theorem frameTileHeader_length (h : FrameTileHeader) : (frameTileHeader.encode h).length ≤ 40 := by
  have hid := u64_length h.id
  have hx := u32_length h.x
  have hy := u32_length h.y
  have hw := u32_length h.w
  have hh := u32_length h.h
  have hs := u32_length h.stride
  have he := pixelEncoding_length h.encoding
  simp only [frameTileHeader, Codec.map, Codec.prod, Equiv.coe_fn_symm_mk, List.length_append]
  omega

theorem frameTile_length {t : FrameTile} (h : t.bytes.length < 2 ^ 32) :
    (frameTile.encode t).length ≤ 45 + t.bytes.length := by
  have hid := u64_length t.id
  have hx := u32_length t.x
  have hy := u32_length t.y
  have hw := u32_length t.w
  have hh := u32_length t.h
  have hs := u32_length t.stride
  have he := pixelEncoding_length t.encoding
  have hb := bytes_length h
  simp only [frameTile, Codec.map, Codec.prod, Equiv.coe_fn_symm_mk, List.length_append]
  omega

theorem frameTileChunk_length {c : FrameTileChunk} (h : c.bytes.length < 2 ^ 32) :
    (frameTileChunk.encode c).length ≤ 80 + c.bytes.length := by
  have hc := u64_length c.channelId
  have hf := u64_length c.frameSeq
  have hi := u32_length c.chunkIndex
  have hn := u32_length c.chunkCount
  have ht := u32_length c.totalLen
  have hh := frameTileHeader_length c.header
  have hb := bytes_length h
  simp only [frameTileChunk, Codec.map, Codec.prod, Equiv.coe_fn_symm_mk, List.length_append]
  omega

end Wire

/-- Postcard on messages. -/
def messageWire : Postcard Message := .ofCodec Wire.message

/-- Postcard on data-plane datagrams. -/
def datagramWire : Postcard DataPlaneDatagram := .ofCodec Wire.dataPlaneDatagram

/-- A tile message is its payload and at most 50 bytes. -/
theorem messageWire_frameTile_length {t : FrameTile} (h : t.bytes.length < 2 ^ 32) :
    (messageWire.toAllocvec (.frameTile t)).length ≤ 50 + t.bytes.length := by
  have hv := Wire.variant_length (n := 16) (by decide) 10
  have ht := Wire.frameTile_length h
  have : messageWire.toAllocvec (.frameTile t) =
      (Wire.variant 16 (by decide)).encode 10 ++ Wire.frameTile.encode t := rfl
  rw [this, List.length_append]
  omega

/-- How long a tile message is: a byte for the variant of the message and one for that of the
encoding, the numbers, and the pixels after their length. -/
theorem messageWire_frameTile_length_eq (t : FrameTile) :
    (messageWire.toAllocvec (.frameTile t)).length =
      2 + varintLength t.id.toNat + varintLength t.x.toNat + varintLength t.y.toNat +
        varintLength t.w.toNat + varintLength t.h.toNat + varintLength t.stride.toNat +
        varintLength t.bytes.length + t.bytes.length := by
  have hu32 : ∀ n : UInt32, (Wire.u32.encode n).length = varintLength n.toNat := fun n =>
    encodeVarint_length (by decide) (Nat.lt_trans n.toNat_lt (by decide))
  have hu64 : ∀ n : UInt64, (Wire.u64.encode n).length = varintLength n.toNat := fun n =>
    encodeVarint_length (by decide) (Nat.lt_trans n.toNat_lt (by decide))
  have hnat : (Codec.nat.encode t.bytes.length).length = varintLength t.bytes.length :=
    encodeVarint_length (by omega) (Nat.lt_of_lt_of_le (Nat.lt_pow_self (by omega))
      (Nat.pow_le_pow_right (by omega) (by omega)))
  have hencoding : (Wire.pixelEncoding.encode t.encoding).length = 1 := by
    cases t.encoding <;> rfl
  have : messageWire.toAllocvec (.frameTile t) =
      (Wire.variant 16 (by decide)).encode 10 ++ Wire.frameTile.encode t := rfl
  have hvariant : ((Wire.variant 16 (by decide)).encode 10).length = 1 := rfl
  rw [this, List.length_append, hvariant]
  simp only [Wire.frameTile, Codec.map, Codec.prod, Equiv.coe_fn_symm_mk, List.length_append,
    Codec.list, Wire.encodeAll_byte, hu32, hu64, hencoding, hnat]
  omega

/-- A chunk's datagram is its payload and at most 85 bytes. -/
theorem datagramWire_frameTileChunk_length {c : FrameTileChunk} (h : c.bytes.length < 2 ^ 32) :
    (datagramWire.toAllocvec (.frameTileChunk c)).length ≤ 85 + c.bytes.length := by
  have hv := Wire.variant_length (n := 1) (by decide) 0
  have hc := Wire.frameTileChunk_length h
  have : datagramWire.toAllocvec (.frameTileChunk c) =
      (Wire.variant 1 (by decide)).encode 0 ++ Wire.frameTileChunk.encode c := rfl
  rw [this, List.length_append]
  omega

end VBox
