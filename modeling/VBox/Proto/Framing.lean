import VBox.Lib.Read
import VBox.Proto.Wire

/-!
# Proto.Framing

`crates/proto/src/framing.rs`: a frame is a big-endian length, the kind tag and the postcard
payload, where the length covers tag and payload but not itself.

* `readFrame_ok_iff`: what `readFrame` accepts from any source is exactly a byte string
  `IsFrame` describes, and it takes exactly that string.
* `isFrame_encodeFrame`: `encodeFrame` writes such a string.
* `frame_stream`: a connection read frame by frame gives back the messages that were written.
-/

namespace VBox

open ByteCodec ByteStream

/-- An `anyhow::Error`: an I/O or postcard error under the context it was given, or a message. -/
inductive Error where
  | io (context : String) (kind : IoErrorKind)
  | postcard (context : String) (cause : PostcardError)
  | msg (text : String)
  deriving DecidableEq, Repr

/-- `downcast_ref::<std::io::Error>()`, which looks through the context. -/
def Error.ioKind : Error → Option IoErrorKind
  | .io _ kind => some kind
  | _ => none

def maxFrameBytes : UInt32 := 64 * 1024 * 1024

def protocolVersion : UInt16 := 15

/-- `{:?}` of a kind. -/
def Kind.debug : Kind → String
  | hello => "Hello"
  | welcome => "Welcome"
  | goodbye => "Goodbye"
  | viewRequest => "ViewRequest"
  | ping => "Ping"
  | pong => "Pong"
  | error => "Error"
  | dataPlaneAuth => "DataPlaneAuth"
  | dataPlaneChannel => "DataPlaneChannel"
  | windowEvent => "WindowEvent"
  | frameTile => "FrameTile"
  | inputEvent => "InputEvent"
  | imeEvent => "ImeEvent"
  | rpcRequest => "RpcRequest"
  | rpcResponse => "RpcResponse"
  | clipboard => "Clipboard"
  | volumeChange => "VolumeChange"

section Codec

variable (pc : Postcard Message)

def encodeFrame (msg : Message) : Except Error Bytes :=
  let payload := pc.toAllocvec msg
  let kind := msg.kind.toU32
  -- a `Vec` is shorter than 2^63, so neither `u64::try_from` nor the addition can fail
  let frameLen := payload.length + 4
  if maxFrameBytes.toNat < frameLen then
    .error (.msg s!"frame too big: {frameLen} > {maxFrameBytes}")
  else
    .ok (u32ToBe (UInt32.ofNat frameLen) ++ u32ToBe kind ++ payload)

def decodeFramePayload (kind : Kind) (payload : Bytes) : Except Error Message :=
  match pc.fromBytes payload with
  | .error e => .error (.postcard "deserializing message" e)
  | .ok msg =>
    if msg.kind = kind then .ok msg
    else
      let header := kind.debug
      let inner := msg.kind.debug
      .error (.msg s!"kind tag mismatch: header={header}, payload={inner}")

def readFrame {σ : Type} (r : Source σ) : Read σ Error Message := do
  let lenBuf ← (r.readExact 4).mapError (.io "reading frame length")
  let frameLen := u32FromBe lenBuf
  if frameLen < 4 then
    .fail (.msg s!"frame too small: {frameLen} bytes")
  else if maxFrameBytes < frameLen then
    .fail (.msg s!"frame too big: {frameLen} > {maxFrameBytes}")
  else do
    let kindBuf ← (r.readExact 4).mapError (.io "reading kind")
    let kindRaw := u32FromBe kindBuf
    match Kind.fromU32 kindRaw with
    | none => .fail (.msg s!"unknown message kind {kindRaw}")
    | some kind =>
      let payloadLen := (frameLen - 4).toNat
      let payload ← (r.readExact payloadLen).mapError (.io "reading payload")
      .lift (decodeFramePayload pc kind payload)

/-- `readFrame`, `n` times over. -/
def readFrames {σ : Type} (r : Source σ) : Nat → Read σ Error (List Message)
  | 0 => pure []
  | n + 1 => do
    let msg ← readFrame pc r
    let msgs ← readFrames r n
    pure (msg :: msgs)

end Codec

/-! ## What a frame is -/

/-- `frame` is a frame that carries `msg`: its length field `frameLen` covers tag and payload and
is in range, its tag is the tag of `msg`, and its payload decodes to `msg`. -/
structure IsFrame (pc : Postcard Message) (msg : Message) (frameLen : UInt32)
    (payload frame : Bytes) : Prop where
  four_le : 4 ≤ frameLen.toNat
  le_max : frameLen.toNat ≤ maxFrameBytes.toNat
  payload_length : payload.length = frameLen.toNat - 4
  decodes : pc.fromBytes payload = .ok msg
  layout : frame = u32ToBe frameLen ++ u32ToBe msg.kind.toU32 ++ payload

theorem decodeFramePayload_ok {pc : Postcard Message} {kind : Kind} {payload : Bytes}
    {msg : Message} : decodeFramePayload pc kind payload = .ok msg ↔
      pc.fromBytes payload = .ok msg ∧ msg.kind = kind := by
  simp only [decodeFramePayload]
  constructor
  · intro h
    split at h
    · cases h
    · rename_i msg' hmsg
      split at h
      · rename_i hk; cases h; exact ⟨hmsg, hk⟩
      · cases h
  · rintro ⟨hmsg, hk⟩
    rw [hmsg]; simp [hk]

theorem sub_four_toNat {n : UInt32} (h : 4 ≤ n.toNat) : (n - 4).toNat = n.toNat - 4 := by
  rw [UInt32.toNat_sub_of_le _ _ (by rw [UInt32.le_iff_toNat_le]; exact h)]; rfl

/-- `readFrame` succeeds on a source exactly when the source hands over a frame. -/
theorem readFrame_ok_iff {pc : Postcard Message} {σ : Type} {r : Source σ} {s s' : σ}
    {msg : Message} : readFrame pc r s = (.ok msg, s') ↔
      ∃ frameLen payload frame, IsFrame pc msg frameLen payload frame ∧ r.takes s frame s' := by
  constructor
  · intro h
    obtain ⟨lenBuf, s1, h1, h⟩ := Read.bind_ok_iff.1 h
    obtain ⟨hlen, ht1⟩ := r.readExact_ok.1 (Read.mapError_ok_iff.1 h1)
    split at h
    · cases h
    rename_i hsmall
    split at h
    · cases h
    rename_i hbig
    obtain ⟨kindBuf, s2, h2, h⟩ := Read.bind_ok_iff.1 h
    obtain ⟨hkind, ht2⟩ := r.readExact_ok.1 (Read.mapError_ok_iff.1 h2)
    rcases hk : Kind.fromU32 (u32FromBe kindBuf) with _ | kind
    · simp only [hk] at h; cases h
    simp only [hk] at h
    obtain ⟨payload, s3, h3, h⟩ := Read.bind_ok_iff.1 h
    obtain ⟨hpay, ht3⟩ := r.readExact_ok.1 (Read.mapError_ok_iff.1 h3)
    rw [Read.lift_apply, Prod.mk.injEq] at h
    obtain ⟨hdec, rfl⟩ := h
    obtain ⟨hmsg, rfl⟩ := decodeFramePayload_ok.1 hdec
    have h4 : 4 ≤ (u32FromBe lenBuf).toNat := Nat.le_of_not_lt hsmall
    refine ⟨u32FromBe lenBuf, payload, lenBuf ++ kindBuf ++ payload,
      ⟨h4, Nat.le_of_not_lt hbig, by rw [hpay, sub_four_toNat h4], hmsg, ?_⟩, ?_⟩
    · rw [u32ToBe_u32FromBe hlen, Kind.toU32_of_fromU32 hk, u32ToBe_u32FromBe hkind]
    · exact r.takes_append.2 ⟨s2, r.takes_append.2 ⟨s1, ht1, ht2⟩, ht3⟩
  · rintro ⟨frameLen, payload, frame, ⟨h4, hmax, hlen, hmsg, rfl⟩, ht⟩
    obtain ⟨s2, ht12, ht3⟩ := r.takes_append.1 ht
    obtain ⟨s1, ht1, ht2⟩ := r.takes_append.1 ht12
    have r1 := r.readExact_ok.2 ⟨u32ToBe_length frameLen, ht1⟩
    have r2 := r.readExact_ok.2 ⟨u32ToBe_length msg.kind.toU32, ht2⟩
    have r3 := r.readExact_ok.2 ⟨hlen.trans (sub_four_toNat h4).symm, ht3⟩
    have hsmall : ¬ frameLen < 4 := Nat.not_lt.2 h4
    have hbig : ¬ maxFrameBytes < frameLen := Nat.not_lt.2 hmax
    rw [readFrame, Read.bind_of_ok (Read.mapError_of_ok r1)]
    simp only [u32FromBe_u32ToBe, if_neg hsmall, if_neg hbig]
    rw [Read.bind_of_ok (Read.mapError_of_ok r2)]
    simp only [u32FromBe_u32ToBe, Kind.fromU32_toU32]
    rw [Read.bind_of_ok (Read.mapError_of_ok r3), Read.lift_apply,
      decodeFramePayload_ok.2 ⟨hmsg, rfl⟩]

/-! ## Writing frames -/

theorem encodeFrame_error_iff {pc : Postcard Message} {msg : Message} :
    (∃ e, encodeFrame pc msg = .error e) ↔
      maxFrameBytes.toNat < (pc.toAllocvec msg).length + 4 := by
  simp only [encodeFrame]
  split
  · rename_i h; simp [h]
  · rename_i h; simp [h]

/-- What `encodeFrame` writes is a frame of the message. -/
theorem isFrame_encodeFrame {pc : Postcard Message} {msg : Message} {frame : Bytes}
    (h : encodeFrame pc msg = .ok frame) :
    IsFrame pc msg (UInt32.ofNat ((pc.toAllocvec msg).length + 4)) (pc.toAllocvec msg) frame := by
  simp only [encodeFrame] at h
  split at h
  · cases h
  · rename_i hlen; cases h
    have hmax := maxFrameBytes.toNat_lt
    have hn : (UInt32.ofNat ((pc.toAllocvec msg).length + 4)).toNat =
        (pc.toAllocvec msg).length + 4 := by
      rw [UInt32.toNat_ofNat']; omega
    exact ⟨by omega, by omega, by omega, pc.fromBytes_toAllocvec msg, rfl⟩

theorem encodeFrame_length {pc : Postcard Message} {msg : Message} {frame : Bytes}
    (h : encodeFrame pc msg = .ok frame) : frame.length = 8 + (pc.toAllocvec msg).length := by
  rw [(isFrame_encodeFrame h).layout]; simp; omega

/-- Reading back a connection: from a source that hands over the frames of `msgs`, as many calls
of `readFrame` return exactly `msgs`. -/
theorem readFrames_of_takes {pc : Postcard Message} {σ : Type} {r : Source σ} {s' : σ} :
    ∀ {msgs : List Message} {frames : List Bytes} {s : σ},
      List.Forall₂ (fun msg frame => encodeFrame pc msg = .ok frame) msgs frames →
      r.takes s frames.flatten s' → readFrames pc r msgs.length s = (.ok msgs, s') := by
  intro msgs
  induction msgs with
  | nil =>
    intro frames s h ht
    cases h
    rw [r.takes_nil.1 ht]; rfl
  | cons msg msgs ih =>
    intro frames s h ht
    cases h with
    | cons hf hfs =>
      obtain ⟨s1, ht1, ht2⟩ := r.takes_append.1 ht
      have h1 := readFrame_ok_iff.2 ⟨_, _, _, isFrame_encodeFrame hf, ht1⟩
      simp only [List.length_cons, readFrames]
      rw [Read.bind_of_ok h1, Read.bind_of_ok (ih hfs ht2)]
      rfl

/-- **The frame codec over whole streams.** Frames written one after the other are read back in
order, and what follows them stays unread; a message is refused exactly when tag and payload
exceed the cap; and the tag in a frame is read as the kind of its message. -/
theorem frame_stream (pc : Postcard Message) :
    (∀ (msgs : List Message) (frames : List Bytes) (rest : Bytes),
      List.Forall₂ (fun msg frame => encodeFrame pc msg = .ok frame) msgs frames →
      readFrames pc Source.bytes msgs.length (frames.flatten ++ rest) = (.ok msgs, rest)) ∧
    (∀ msg, (∃ e, encodeFrame pc msg = .error e) ↔
      maxFrameBytes.toNat < (pc.toAllocvec msg).length + 4) ∧
    (∀ msg, Kind.fromU32 msg.kind.toU32 = some msg.kind ∧
      ∀ frame, encodeFrame pc msg = .ok frame →
        Kind.fromU32 (u32FromBe ((frame.drop 4).take 4)) = some msg.kind) := by
  refine ⟨?_, fun msg => encodeFrame_error_iff, fun msg => ⟨Kind.fromU32_toU32 _, ?_⟩⟩
  · intro msgs frames rest h
    exact readFrames_of_takes (r := Source.bytes) h rfl
  · intro frame h
    have htag : (frame.drop 4).take 4 = u32ToBe msg.kind.toU32 := by
      rw [(isFrame_encodeFrame h).layout]; rfl
    rw [htag, u32FromBe_u32ToBe, Kind.fromU32_toU32]

/-- Two frames and a stray byte. -/
theorem frame_stream_ping_goodbye :
    readFrames messageWire Source.bytes 2
      ([0, 0, 0, 7, 0, 0, 0, 10, 3, 1, 2] ++ [0, 0, 0, 7, 0, 0, 0, 3, 2, 1, 120] ++ [255]) =
      (.ok [.ping ⟨1, 2⟩, .goodbye ⟨"x"⟩], [255]) :=
  (frame_stream messageWire).1 [.ping ⟨1, 2⟩, .goodbye ⟨"x"⟩]
    [[0, 0, 0, 7, 0, 0, 0, 10, 3, 1, 2], [0, 0, 0, 7, 0, 0, 0, 3, 2, 1, 120]] [255]
    (.cons (by decide) (.cons (by decide) .nil))

end VBox
