import VBox.Proto.Framing

/-!
# DataPlane.FrameReaders

The two copies of the frame reader the QUIC data plane carries: `read_frame` in
`client/src/data_plane/quic.rs` and `read_frame` in `server/src/data_plane/quic_listener.rs`.
Each is written out again in its crate, over quinn's `read_exact`, and differs from the protocol
crate's reader only in its texts. `frame_readers_agree` says that this is the only difference.
-/

namespace VBox

open ByteCodec ByteStream

namespace Client

def readFrame (pc : Postcard Message) {σ : Type} (recv : Source σ) : Read σ Error Message := do
  let len ← (recv.readExact 4).mapError (.io "reading QUIC frame length")
  let frameLen := u32FromBe len
  if frameLen < 4 then
    .fail (.msg s!"QUIC frame too small: {frameLen}")
  else if maxFrameBytes < frameLen then
    .fail (.msg s!"QUIC frame too big: {frameLen}")
  else do
    let kindRaw ← (recv.readExact 4).mapError (.io "reading QUIC kind")
    let kindRaw := u32FromBe kindRaw
    match Kind.fromU32 kindRaw with
    | none => .fail (.msg s!"unknown QUIC message kind {kindRaw}")
    | some kind =>
      let payload ← (recv.readExact (frameLen - 4).toNat).mapError (.io "reading QUIC payload")
      .lift (decodeFramePayload pc kind payload)

end Client

namespace Server

def readFrame (pc : Postcard Message) {σ : Type} (recv : Source σ) : Read σ Error Message := do
  let len ← (recv.readExact 4).mapError (.io "reading QUIC frame length")
  let frameLen := u32FromBe len
  if frameLen < 4 then
    .fail (.msg s!"QUIC frame too small: {frameLen}")
  else if maxFrameBytes < frameLen then
    .fail (.msg s!"QUIC frame too big: {frameLen}")
  else do
    let kindRaw ← (recv.readExact 4).mapError (.io "reading QUIC frame kind")
    let kindRaw := u32FromBe kindRaw
    match Kind.fromU32 kindRaw with
    | none => .fail (.msg s!"unknown QUIC message kind {kindRaw}")
    | some kind =>
      let payload ←
        (recv.readExact (frameLen - 4).toNat).mapError (.io "reading QUIC frame payload")
      .lift (decodeFramePayload pc kind payload)

end Server

theorem agree_client (pc : Postcard Message) {σ : Type} (r : Source σ) :
    Read.Agree (readFrame pc r) (Client.readFrame pc r) := by
  refine Read.agree_bind (Read.agree_mapError _ _ _) fun lenBuf => ?_
  refine Read.agree_ite (Read.agree_fail _ _) (Read.agree_ite (Read.agree_fail _ _) ?_)
  refine Read.agree_bind (Read.agree_mapError _ _ _) fun kindBuf => ?_
  dsimp only
  cases Kind.fromU32 (u32FromBe kindBuf) with
  | none => exact Read.agree_fail _ _
  | some kind => exact Read.agree_bind (Read.agree_mapError _ _ _) fun _ => Read.agree_lift _

theorem agree_server (pc : Postcard Message) {σ : Type} (r : Source σ) :
    Read.Agree (readFrame pc r) (Server.readFrame pc r) := by
  refine Read.agree_bind (Read.agree_mapError _ _ _) fun lenBuf => ?_
  refine Read.agree_ite (Read.agree_fail _ _) (Read.agree_ite (Read.agree_fail _ _) ?_)
  refine Read.agree_bind (Read.agree_mapError _ _ _) fun kindBuf => ?_
  dsimp only
  cases Kind.fromU32 (u32FromBe kindBuf) with
  | none => exact Read.agree_fail _ _
  | some kind => exact Read.agree_bind (Read.agree_mapError _ _ _) fun _ => Read.agree_lift _

/-- **The three frame readers are one.** On every byte stream they all reject, leaving the stream
at the same place, or all accept: then with the same message and the same rest, and what they
consumed is a frame whose length field is in `4..=MAX_FRAME_BYTES` and whose tag is the
message's. -/
theorem frame_readers_agree (pc : Postcard Message) (stream : Bytes) :
    (∃ (msg : Message) (rest : Bytes),
      readFrame pc Source.bytes stream = (.ok msg, rest) ∧
      Client.readFrame pc Source.bytes stream = (.ok msg, rest) ∧
      Server.readFrame pc Source.bytes stream = (.ok msg, rest) ∧
      ∃ (frameLen : UInt32) (payload : Bytes),
        stream = u32ToBe frameLen ++ u32ToBe msg.kind.toU32 ++ payload ++ rest ∧
        payload.length = frameLen.toNat - 4 ∧
        4 ≤ frameLen.toNat ∧ frameLen.toNat ≤ maxFrameBytes.toNat) ∨
    (∃ (e e₁ e₂ : Error) (rest : Bytes),
      readFrame pc Source.bytes stream = (.error e, rest) ∧
      Client.readFrame pc Source.bytes stream = (.error e₁, rest) ∧
      Server.readFrame pc Source.bytes stream = (.error e₂, rest)) := by
  rcases agree_client pc Source.bytes stream with ⟨msg, rest, hp, hc⟩ | ⟨e, e₁, rest, hp, hc⟩
  · left
    rcases agree_server pc Source.bytes stream with ⟨_, _, hp', hs⟩ | ⟨_, _, _, hp', _⟩
    · rw [hp] at hp'; cases hp'
      obtain ⟨frameLen, payload, frame, hf, ht⟩ := readFrame_ok_iff.1 hp
      refine ⟨msg, rest, hp, hc, hs, frameLen, payload, ?_, hf.payload_length, hf.four_le, hf.le_max⟩
      rw [← hf.layout]; exact ht
    · rw [hp] at hp'; cases hp'
  · right
    rcases agree_server pc Source.bytes stream with ⟨_, _, hp', _⟩ | ⟨_, e₂, _, hp', hs⟩
    · rw [hp] at hp'; cases hp'
    · rw [hp] at hp'; cases hp'
      exact ⟨e, e₁, e₂, rest, hp, hc, hs⟩

end VBox
