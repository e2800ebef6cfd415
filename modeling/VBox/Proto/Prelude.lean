import VBox.DataPlane.FrameReaders
import VBox.Lib.Streams

/-!
# Proto.Prelude

What each side of a connection writes before its first frame, and how the other side reads it
(`write_prelude`, `read_prelude` in `crates/proto/src/framing.rs`, and the two copies for QUIC in
`client/src/data_plane/quic.rs` and `server/src/data_plane/quic_listener.rs`).

* `readPreludeWith_ok_iff`: the reader accepts exactly what is written, of its own version.
* `frameReader`: a stream of frames as something that items are read off.
-/

namespace VBox

open ByteCodec ByteStream

/-- `b"VBOX"` -/
def magic : Bytes := [86, 66, 79, 88]

def u16ToBe (n : UInt16) : Bytes := [UInt8.ofNat (n.toNat / 2 ^ 8), UInt8.ofNat n.toNat]

def u16FromBe : Bytes → UInt16
  | [a, b] => UInt16.ofNat (a.toNat * 2 ^ 8 + b.toNat)
  | _ => 0

@[simp] theorem u16ToBe_length (n : UInt16) : (u16ToBe n).length = 2 := rfl

@[simp] theorem u16FromBe_u16ToBe (n : UInt16) : u16FromBe (u16ToBe n) = n := by
  apply UInt16.toNat_inj.mp
  have := n.toNat_lt
  simp only [u16ToBe, u16FromBe, UInt8.toNat_ofNat', UInt16.toNat_ofNat']
  omega

theorem u16ToBe_u16FromBe {bs : Bytes} (h : bs.length = 2) : u16ToBe (u16FromBe bs) = bs := by
  obtain ⟨a, b, rfl⟩ : ∃ a b, bs = [a, b] := by
    match bs, h with
    | [a, b], _ => exact ⟨a, b, rfl⟩
  have ha := a.toNat_lt
  have hb := b.toNat_lt
  simp only [u16FromBe, u16ToBe, UInt16.toNat_ofNat', List.cons.injEq, and_true]
  constructor <;> apply UInt8.toNat_inj.mp <;> simp only [UInt8.toNat_ofNat'] <;> omega

/-- What `write_prelude` writes. -/
def prelude : Bytes := magic ++ u16ToBe protocolVersion

/-- `read_prelude`, by its error contexts and messages. -/
def readPreludeWith (magicContext : String) (badMagic : Bytes → String) (versionContext : String)
    (badVersion : UInt16 → String) {σ : Type} (r : Source σ) : Read σ Error UInt16 := do
  let found ← (r.readExact 4).mapError (.io magicContext)
  if found ≠ magic then .fail (.msg (badMagic found))
  else do
    let verBuf ← (r.readExact 2).mapError (.io versionContext)
    let ver := u16FromBe verBuf
    if ver ≠ protocolVersion then .fail (.msg (badVersion ver))
    else pure ver

def readPrelude {σ : Type} (r : Source σ) : Read σ Error UInt16 :=
  readPreludeWith "reading magic" (fun found => s!"bad magic: {found} (expected {magic})")
    "reading version" (fun ver => s!"protocol version mismatch: peer={ver}, ours={protocolVersion}") r

def Client.readPrelude {σ : Type} (recv : Source σ) : Read σ Error UInt16 :=
  readPreludeWith "reading QUIC magic" (fun found => s!"bad QUIC magic: {found}")
    "reading QUIC version"
    (fun ver => s!"QUIC protocol version mismatch: peer={ver}, ours={protocolVersion}") recv

def Server.readPrelude {σ : Type} (recv : Source σ) : Read σ Error UInt16 :=
  readPreludeWith "reading QUIC magic" (fun found => s!"bad QUIC magic: {found}")
    "reading QUIC version"
    (fun ver => s!"QUIC protocol version mismatch: peer={ver}, ours={protocolVersion}") recv

section Prelude

variable {magicContext versionContext : String} {badMagic : Bytes → String}
  {badVersion : UInt16 → String}

theorem readPreludeWith_ok_iff {σ : Type} {r : Source σ} {s s' : σ} {ver : UInt16} :
    readPreludeWith magicContext badMagic versionContext badVersion r s = (.ok ver, s') ↔
      ver = protocolVersion ∧ r.takes s prelude s' := by
  constructor
  · intro h
    obtain ⟨found, s1, h1, h⟩ := Read.bind_ok_iff.1 h
    obtain ⟨-, ht1⟩ := r.readExact_ok.1 (Read.mapError_ok_iff.1 h1)
    split at h
    · cases h
    rename_i hmagic
    rw [Decidable.not_not] at hmagic
    subst hmagic
    obtain ⟨verBuf, s2, h2, h⟩ := Read.bind_ok_iff.1 h
    obtain ⟨hlen, ht2⟩ := r.readExact_ok.1 (Read.mapError_ok_iff.1 h2)
    split at h
    · cases h
    rename_i hver
    rw [Decidable.not_not] at hver
    cases h
    refine ⟨hver, r.takes_append.2 ⟨s1, ht1, ?_⟩⟩
    rwa [← hver, u16ToBe_u16FromBe hlen]
  · rintro ⟨rfl, ht⟩
    obtain ⟨s1, ht1, ht2⟩ := r.takes_append.1 ht
    have r1 : r.readExact 4 s = (.ok magic, s1) := r.readExact_ok.2 ⟨rfl, ht1⟩
    have r2 := r.readExact_ok.2 ⟨u16ToBe_length protocolVersion, ht2⟩
    rw [readPreludeWith, Read.bind_of_ok (Read.mapError_of_ok r1), if_neg (by simp),
      Read.bind_of_ok (Read.mapError_of_ok r2)]
    simp only [u16FromBe_u16ToBe, ne_eq, not_true_eq_false, if_false]
    rfl

theorem readPreludeWith_prelude :
    readPreludeWith magicContext badMagic versionContext badVersion Source.bytes prelude =
      (.ok protocolVersion, []) :=
  readPreludeWith_ok_iff.2 ⟨rfl, (List.append_nil prelude).symm⟩

/-! ## Steady readers -/

/-- An error of a read that ran out of bytes. The other errors are about the bytes that were read. -/
def Error.isIo (e : Error) : Bool := e.ioKind.isSome

theorem steady_io (context : String) (n : Nat) :
    Read.Steady Error.isIo ((Source.bytes.readExact n).mapError (.io context)) :=
  Read.steady_readExact (fun _ => rfl) n

theorem steady_readPreludeWith : Read.Steady Error.isIo
    (readPreludeWith magicContext badMagic versionContext badVersion Source.bytes) := by
  refine Read.steady_bind (steady_io _ _) fun found => ?_
  refine Read.steady_ite (Read.steady_fail _) (Read.steady_bind (steady_io _ _) fun verBuf => ?_)
  exact Read.steady_ite (Read.steady_fail _) (Read.steady_pure _)

end Prelude

section Frames

variable (pc : Postcard Message)

theorem steady_readFrame : Read.Steady Error.isIo (readFrame pc Source.bytes) := by
  refine Read.steady_bind (steady_io _ _) fun lenBuf => ?_
  refine Read.steady_ite (Read.steady_fail _) (Read.steady_ite (Read.steady_fail _) ?_)
  refine Read.steady_bind (steady_io _ _) fun kindBuf => ?_
  dsimp only
  split
  · exact Read.steady_fail _
  · exact Read.steady_bind (steady_io _ _) fun _ => Read.steady_lift _

theorem steady_clientReadFrame : Read.Steady Error.isIo (Client.readFrame pc Source.bytes) := by
  refine Read.steady_bind (steady_io _ _) fun lenBuf => ?_
  refine Read.steady_ite (Read.steady_fail _) (Read.steady_ite (Read.steady_fail _) ?_)
  refine Read.steady_bind (steady_io _ _) fun kindBuf => ?_
  dsimp only
  split
  · exact Read.steady_fail _
  · exact Read.steady_bind (steady_io _ _) fun _ => Read.steady_lift _

theorem steady_serverReadFrame : Read.Steady Error.isIo (Server.readFrame pc Source.bytes) := by
  refine Read.steady_bind (steady_io _ _) fun lenBuf => ?_
  refine Read.steady_ite (Read.steady_fail _) (Read.steady_ite (Read.steady_fail _) ?_)
  refine Read.steady_bind (steady_io _ _) fun kindBuf => ?_
  dsimp only
  split
  · exact Read.steady_fail _
  · exact Read.steady_bind (steady_io _ _) fun _ => Read.steady_lift _

variable {pc} {bs rest : Bytes} {msg : Message}

theorem clientReadFrame_ok_iff : Client.readFrame pc Source.bytes bs = (.ok msg, rest) ↔
    ∃ frameLen payload frame, IsFrame pc msg frameLen payload frame ∧ bs = frame ++ rest := by
  have hsame : Client.readFrame pc Source.bytes bs = (.ok msg, rest) ↔
      readFrame pc Source.bytes bs = (.ok msg, rest) := by
    obtain ⟨a, s, h, h'⟩ | ⟨e, e', s, h, h'⟩ := agree_client pc Source.bytes bs
    · rw [h, h']
    · rw [h, h']
      simp
  rw [hsame, readFrame_ok_iff]
  rfl

theorem IsFrame.length_eq {frameLen : UInt32} {payload frame : Bytes}
    (h : IsFrame pc msg frameLen payload frame) : frame.length = frameLen.toNat + 4 := by
  have hlen := h.payload_length
  have hmin := h.four_le
  rw [h.layout]
  simp only [List.length_append, u32ToBe_length]
  omega

/-- The message can be sent: its frame is not too big. -/
def Message.Fits (pc : Postcard Message) (msg : Message) : Prop := ∃ frame, encodeFrame pc msg = .ok frame

instance (pc : Postcard Message) (msg : Message) : Decidable (msg.Fits pc) :=
  match h : encodeFrame pc msg with
  | .ok frame => isTrue ⟨frame, h⟩
  | .error e => isFalse fun ⟨frame, hframe⟩ => by
    rw [h] at hframe
    cases hframe

theorem readFrame_encodeFrame {frame : Bytes} (h : encodeFrame pc msg = .ok frame) :
    readFrame pc Source.bytes frame = (.ok msg, []) :=
  readFrame_ok_iff.2 ⟨_, _, _, isFrame_encodeFrame h, (List.append_nil frame).symm⟩

/-- The three readers read what is written. -/
theorem clientReadFrame_encodeFrame {frame : Bytes} (h : encodeFrame pc msg = .ok frame) :
    Client.readFrame pc Source.bytes frame = (.ok msg, []) := by
  obtain ⟨_, _, hp, hc⟩ | ⟨_, _, _, hp, -⟩ := agree_client pc Source.bytes frame
  · rw [readFrame_encodeFrame h] at hp
    cases hp
    exact hc
  · rw [readFrame_encodeFrame h] at hp
    cases hp

theorem serverReadFrame_encodeFrame {frame : Bytes} (h : encodeFrame pc msg = .ok frame) :
    Server.readFrame pc Source.bytes frame = (.ok msg, []) := by
  obtain ⟨_, _, hp, hs⟩ | ⟨_, _, _, hp, -⟩ := agree_server pc Source.bytes frame
  · rw [readFrame_encodeFrame h] at hp
    cases hp
    exact hs
  · rw [readFrame_encodeFrame h] at hp
    cases hp

theorem clientReadFrame_lt (h : Client.readFrame pc Source.bytes bs = (.ok msg, rest)) :
    rest.length < bs.length := by
  obtain ⟨frameLen, payload, frame, hframe, rfl⟩ := clientReadFrame_ok_iff.1 h
  have := hframe.length_eq
  rw [List.length_append]
  omega

variable (pc) in
/-- Frames, as the client reads them off a QUIC stream. -/
def frameReader : ItemReader Message :=
  .ofRead (Client.readFrame pc Source.bytes) (steady_clientReadFrame pc) clientReadFrame_lt

theorem frameReader_read_eq_some : (frameReader pc).read bs = some (msg, rest) ↔
    Client.readFrame pc Source.bytes bs = (.ok msg, rest) := by
  simp only [frameReader, ItemReader.ofRead]
  split
  · rename_i h
    rw [h]
    simp
  · rename_i h
    rw [h]
    simp

theorem encodes_frame {frame : Bytes} (h : encodeFrame pc msg = .ok frame) :
    (frameReader pc).Encodes msg frame :=
  frameReader_read_eq_some.2 (clientReadFrame_ok_iff.2 ⟨_, _, _, isFrame_encodeFrame h, by simp⟩)

/-- A frame is not read before its last byte is there. -/
theorem IsFrame.read_cut {frameLen : UInt32} {payload frame cut : Bytes}
    (h : IsFrame pc msg frameLen payload frame) (hcut : cut <+: frame)
    (hlt : cut.length < frame.length) : (frameReader pc).read cut = none := by
  cases hread : (frameReader pc).read cut with
  | none => rfl
  | some found =>
    obtain ⟨msg', rest⟩ := found
    obtain ⟨frameLen', payload', frame', hframe', rfl⟩ :=
      clientReadFrame_ok_iff.1 (frameReader_read_eq_some.1 hread)
    obtain ⟨more, hmore⟩ := hcut
    -- both start with the same length field
    have hsame : u32ToBe frameLen' = u32ToBe frameLen := by
      rw [hframe'.layout, h.layout] at hmore
      simp only [List.append_assoc] at hmore
      exact (List.append_inj hmore rfl).1
    have hlen : frameLen' = frameLen := by
      rw [← u32FromBe_u32ToBe frameLen', hsame, u32FromBe_u32ToBe]
    have := hframe'.length_eq
    have := h.length_eq
    rw [List.length_append] at hlt
    rw [hlen] at *
    omega

end Frames

end VBox
