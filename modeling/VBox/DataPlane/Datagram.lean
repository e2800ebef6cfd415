import VBox.Lib.Slices
import VBox.Proto.Framing

/-!
# DataPlane.Datagram

Splitting a frame tile into QUIC datagrams (`crates/proto/src/data_plane.rs`).

`SentFrame` names one call of `frame_tile_datagrams`: a tile, the channel and sequence number it
is sent under and the datagram size of the path. `SentFrame.split_ok` says what a successful call
returns: the encodings of `f.chunk 0, f.chunk 1, ...`, whose payloads are the pieces of the tile
in order. `SentFrame.split_datagramWire` says that with postcard's own sizes the call succeeds, and
`frameTileDatagrams_exact` that the datagrams it makes fit the path.
-/

namespace VBox

open ByteCodec Slices

def FrameTileHeader.ofTile (tile : FrameTile) : FrameTileHeader :=
  { id := tile.id, x := tile.x, y := tile.y, w := tile.w, h := tile.h, stride := tile.stride,
    encoding := tile.encoding }

def FrameTileHeader.intoTile (header : FrameTileHeader) (bytes : Bytes) : FrameTile :=
  { id := header.id, x := header.x, y := header.y, w := header.w, h := header.h,
    stride := header.stride, encoding := header.encoding, bytes }

@[simp] theorem FrameTileHeader.intoTile_ofTile (tile : FrameTile) :
    (ofTile tile).intoTile tile.bytes = tile := rfl

/-- `u32::try_from` on a `usize`. -/
def u32TryFrom (n : Nat) : Option UInt32 := if n < 2 ^ 32 then some (UInt32.ofNat n) else none

theorem u32TryFrom_eq_some {n : Nat} {x : UInt32} (h : u32TryFrom n = some x) :
    n < 2 ^ 32 ∧ x = UInt32.ofNat n := by
  rw [u32TryFrom] at h
  split at h
  · rename_i hn; cases h; exact ⟨hn, rfl⟩
  · cases h

/-- `max_datagram_size.min(1200).saturating_sub(256).max(256)` -/
def payloadLimit (maxDatagramSize : Nat) : Nat := max (min maxDatagramSize 1200 - 256) 256

theorem payloadLimit_bounds (maxDatagramSize : Nat) :
    256 ≤ payloadLimit maxDatagramSize ∧ payloadLimit maxDatagramSize ≤ 944 := by
  unfold payloadLimit; omega

section Split

variable (pc : Postcard DataPlaneDatagram)

def encodeDatagram (datagram : DataPlaneDatagram) : Bytes := pc.toAllocvec datagram

def decodeDatagram (bytes : Bytes) : Except Error DataPlaneDatagram :=
  match pc.fromBytes bytes with
  | .error e => .error (.postcard "deserializing data-plane datagram" e)
  | .ok datagram => .ok datagram

/-- The loop over `tile.bytes.chunks(payload_limit).enumerate()`, from chunk `index` on. -/
def encodeChunks (channelId frameSeq : UInt64) (chunkCount totalLen : UInt32)
    (header : FrameTileHeader) (maxDatagramSize : Nat) :
    Nat → List Bytes → Except Error (List Bytes)
  | _, [] => .ok []
  | index, chunk :: rest =>
    match u32TryFrom index with
    | none => .error (.msg "frame tile chunk index exceeds u32")
    | some chunkIndex =>
      let encoded := encodeDatagram pc (.frameTileChunk
        { channelId, frameSeq, chunkIndex, chunkCount, totalLen, header, bytes := chunk })
      let len := encoded.length
      if maxDatagramSize < len then
        .error (.msg s!"encoded frame tile datagram too large: {len} > {maxDatagramSize}")
      else
        match encodeChunks channelId frameSeq chunkCount totalLen header maxDatagramSize
          (index + 1) rest with
        | .error e => .error e
        | .ok datagrams => .ok (encoded :: datagrams)

def frameTileDatagrams (tile : FrameTile) (channelId frameSeq : UInt64) (maxDatagramSize : Nat) :
    Except Error (List Bytes) :=
  if maxDatagramSize < 512 then
    .error (.msg s!"QUIC datagram size too small: {maxDatagramSize}")
  else
    let limit := payloadLimit maxDatagramSize
    match u32TryFrom (divCeil tile.bytes.length limit) with
    | none => .error (.msg "frame tile chunk count exceeds u32")
    | some chunkCount =>
      match u32TryFrom tile.bytes.length with
      | none => .error (.msg "frame tile too large")
      | some totalLen =>
        let header := FrameTileHeader.ofTile tile
        if tile.bytes = [] then
          let encoded := encodeDatagram pc (.frameTileChunk
            { channelId, frameSeq, chunkIndex := 0, chunkCount := 1, totalLen := 0, header,
              bytes := [] })
          let len := encoded.length
          if maxDatagramSize < len then
            .error (.msg s!"encoded empty frame tile datagram too large: {len} > {maxDatagramSize}")
          else .ok [encoded]
        else
          encodeChunks pc channelId frameSeq chunkCount totalLen header maxDatagramSize 0
            (chunks limit tile.bytes)

end Split

/-! ## A frame and its chunks -/

/-- A tile under the channel and sequence number it is sent with, for a path that takes datagrams
of `maxDatagramSize` bytes. -/
structure SentFrame where
  tile : FrameTile
  channelId : UInt64
  frameSeq : UInt64
  maxDatagramSize : Nat

namespace SentFrame

def key (f : SentFrame) : UInt64 × UInt64 := (f.channelId, f.frameSeq)

/-- The payloads of the datagrams, in order. -/
def pieces (f : SentFrame) : List Bytes :=
  if f.tile.bytes = [] then [[]] else chunks (payloadLimit f.maxDatagramSize) f.tile.bytes

def chunk (f : SentFrame) (i : Nat) : FrameTileChunk :=
  { channelId := f.channelId, frameSeq := f.frameSeq, chunkIndex := UInt32.ofNat i,
    chunkCount := UInt32.ofNat f.pieces.length, totalLen := UInt32.ofNat f.tile.bytes.length,
    header := .ofTile f.tile, bytes := f.pieces.getD i [] }

def datagram (pc : Postcard DataPlaneDatagram) (f : SentFrame) (i : Nat) : Bytes :=
  encodeDatagram pc (.frameTileChunk (f.chunk i))

def datagrams (pc : Postcard DataPlaneDatagram) (f : SentFrame) : List Bytes :=
  (List.range f.pieces.length).map (f.datagram pc)

/-- The call that splits the frame. -/
def split (pc : Postcard DataPlaneDatagram) (f : SentFrame) : Except Error (List Bytes) :=
  frameTileDatagrams pc f.tile f.channelId f.frameSeq f.maxDatagramSize

theorem pieces_flatten (f : SentFrame) : f.pieces.flatten = f.tile.bytes := by
  unfold pieces
  split
  · rename_i h; rw [h]; rfl
  · exact chunks_flatten (by have := payloadLimit_bounds f.maxDatagramSize; omega) _

theorem pieces_length (f : SentFrame) :
    f.pieces.length = max 1 (divCeil f.tile.bytes.length (payloadLimit f.maxDatagramSize)) := by
  have hlim := payloadLimit_bounds f.maxDatagramSize
  unfold pieces
  split
  · rename_i h
    have : divCeil 0 (payloadLimit f.maxDatagramSize) ≤ 0 := (divCeil_le_iff (by omega)).2 (by omega)
    simp [h]; omega
  · rename_i h
    have := divCeil_pos (b := payloadLimit f.maxDatagramSize) (by omega) (List.length_pos_iff.2 h)
    rw [chunks_length]; omega

theorem pieces_length_pos (f : SentFrame) : 0 < f.pieces.length := by
  rw [pieces_length]; omega

end SentFrame

theorem encodeChunks_ok {pc : Postcard DataPlaneDatagram} {channelId frameSeq : UInt64}
    {chunkCount totalLen : UInt32} {header : FrameTileHeader} {maxDatagramSize : Nat} :
    ∀ {rest : List Bytes} {index : Nat} {datagrams : List Bytes},
      encodeChunks pc channelId frameSeq chunkCount totalLen header maxDatagramSize index rest =
        .ok datagrams →
      datagrams = (List.range rest.length).map fun i => encodeDatagram pc (.frameTileChunk
        { channelId, frameSeq, chunkIndex := UInt32.ofNat (index + i), chunkCount, totalLen, header,
          bytes := rest.getD i [] }) := by
  intro rest
  induction rest with
  | nil => intro index datagrams h; cases h; rfl
  | cons chunk rest ih =>
    intro index datagrams h
    simp only [encodeChunks] at h
    split at h
    · cases h
    rename_i chunkIndex hidx
    obtain ⟨-, rfl⟩ := u32TryFrom_eq_some hidx
    split at h
    · cases h
    split at h
    · cases h
    rename_i tail htail
    cases h
    rw [ih htail, List.length_cons, List.range_succ_eq_map, List.map_cons, List.map_map]
    congr 1
    apply List.map_congr_left
    intro i _
    simp [Nat.add_assoc, Nat.add_comm 1]

namespace SentFrame

/-- A successful split returns the encodings of the frame's chunks, in order. -/
theorem split_ok {pc : Postcard DataPlaneDatagram} {f : SentFrame} {datagrams : List Bytes}
    (h : f.split pc = .ok datagrams) :
    datagrams = f.datagrams pc ∧ f.tile.bytes.length < 2 ^ 32 ∧ f.pieces.length < 2 ^ 32 := by
  simp only [split, frameTileDatagrams] at h
  split at h
  · cases h
  split at h
  · cases h
  rename_i chunkCount hcount
  obtain ⟨hc, rfl⟩ := u32TryFrom_eq_some hcount
  split at h
  · cases h
  rename_i totalLen htotal
  obtain ⟨ht, rfl⟩ := u32TryFrom_eq_some htotal
  have hlen : f.pieces.length < 2 ^ 32 := by rw [f.pieces_length]; omega
  split at h
  · rename_i hnil
    split at h
    · cases h
    · cases h
      refine ⟨?_, ht, hlen⟩
      have hp : f.pieces = [[]] := by simp [SentFrame.pieces, hnil]
      simp [hp, SentFrame.datagrams, SentFrame.datagram, SentFrame.chunk, hnil]
  · rename_i hnil
    have hp : f.pieces = chunks (payloadLimit f.maxDatagramSize) f.tile.bytes := by
      simp [SentFrame.pieces, hnil]
    refine ⟨?_, ht, hlen⟩
    rw [encodeChunks_ok h, ← hp, SentFrame.datagrams]
    apply List.map_congr_left
    intro i _
    simp only [SentFrame.datagram, SentFrame.chunk, Nat.zero_add]
    rw [hp, chunks_length]

end SentFrame

/-! ## Which frames are split -/

theorem encodeChunks_isOk {pc : Postcard DataPlaneDatagram} {channelId frameSeq : UInt64}
    {chunkCount totalLen : UInt32} {header : FrameTileHeader} {maxDatagramSize : Nat}
    {limit : Nat}
    (hsize : ∀ c : FrameTileChunk, c.bytes.length ≤ limit →
      (encodeDatagram pc (.frameTileChunk c)).length ≤ maxDatagramSize) :
    ∀ (rest : List Bytes) (index : Nat), index + rest.length ≤ 2 ^ 32 →
      (∀ p ∈ rest, p.length ≤ limit) →
      ∃ datagrams, encodeChunks pc channelId frameSeq chunkCount totalLen header maxDatagramSize
        index rest = .ok datagrams := by
  intro rest
  induction rest with
  | nil => intro index _ _; exact ⟨[], rfl⟩
  | cons chunk rest ih =>
    intro index hidx hrest
    rw [List.length_cons] at hidx
    obtain ⟨tail, htail⟩ := ih (index + 1) (by omega)
      fun p hp => hrest p (List.mem_cons_of_mem _ hp)
    have hindex : u32TryFrom index = some (UInt32.ofNat index) := if_pos (by omega)
    have hlen := hsize
      { channelId, frameSeq, chunkIndex := UInt32.ofNat index, chunkCount, totalLen, header,
        bytes := chunk } (hrest chunk List.mem_cons_self)
    simp only [encodeChunks, hindex, if_neg (Nat.not_lt.2 hlen), htail]
    exact ⟨_, rfl⟩

/-- Postcard's overhead is below the 256 bytes that `payloadLimit` sets aside. -/
theorem encodeDatagram_fits {maxDatagramSize : Nat} (hmax : 512 ≤ maxDatagramSize)
    (c : FrameTileChunk) (hc : c.bytes.length ≤ payloadLimit maxDatagramSize) :
    (encodeDatagram datagramWire (.frameTileChunk c)).length ≤ maxDatagramSize := by
  have hlim := payloadLimit_bounds maxDatagramSize
  have hlen := datagramWire_frameTileChunk_length (c := c) (by omega)
  rw [encodeDatagram]
  unfold payloadLimit at hc
  omega

namespace SentFrame

theorem pieces_length_lt {f : SentFrame} (hlen : f.tile.bytes.length < 2 ^ 32) :
    f.pieces.length < 2 ^ 32 := by
  have hlim := payloadLimit_bounds f.maxDatagramSize
  have hcount : divCeil f.tile.bytes.length (payloadLimit f.maxDatagramSize) ≤
      f.tile.bytes.length :=
    (divCeil_le_iff (by omega)).2 (Nat.le_mul_of_pos_right _ (by omega))
  rw [f.pieces_length]
  omega

theorem length_le_of_mem_pieces {f : SentFrame} {p : Bytes} (h : p ∈ f.pieces) :
    p.length ≤ payloadLimit f.maxDatagramSize := by
  unfold pieces at h
  split at h
  · rw [List.mem_singleton.1 h]
    exact Nat.zero_le _
  · exact length_le_of_mem_chunks h

theorem ne_nil_of_mem_pieces {f : SentFrame} (htile : f.tile.bytes ≠ []) {p : Bytes}
    (h : p ∈ f.pieces) : p ≠ [] := by
  have hlim := payloadLimit_bounds f.maxDatagramSize
  rw [pieces, if_neg htile] at h
  exact ne_nil_of_mem_chunks (by omega) h

/-- A tile is split on every path with datagrams of 512 bytes or more. -/
theorem split_datagramWire {f : SentFrame} (hmax : 512 ≤ f.maxDatagramSize)
    (hlen : f.tile.bytes.length < 2 ^ 32) :
    f.split datagramWire = .ok (f.datagrams datagramWire) := by
  have hpieces := pieces_length_lt hlen
  have hcount : divCeil f.tile.bytes.length (payloadLimit f.maxDatagramSize) < 2 ^ 32 := by
    rw [f.pieces_length] at hpieces
    omega
  suffices ∃ datagrams, f.split datagramWire = .ok datagrams by
    obtain ⟨datagrams, h⟩ := this
    rw [h, (split_ok h).1]
  have hcount' : u32TryFrom (divCeil f.tile.bytes.length (payloadLimit f.maxDatagramSize)) =
      some (UInt32.ofNat (divCeil f.tile.bytes.length (payloadLimit f.maxDatagramSize))) :=
    if_pos hcount
  have hlen' : u32TryFrom f.tile.bytes.length = some (UInt32.ofNat f.tile.bytes.length) :=
    if_pos hlen
  simp only [split, frameTileDatagrams, if_neg (Nat.not_lt.2 hmax), hcount', hlen']
  split
  · rw [if_neg (Nat.not_lt.2 (encodeDatagram_fits hmax _ (Nat.zero_le _)))]
    exact ⟨_, rfl⟩
  · refine encodeChunks_isOk (encodeDatagram_fits hmax) _ _ ?_ fun p hp =>
      length_le_of_mem_chunks hp
    rw [chunks_length]
    omega

theorem chunk_bytes {f : SentFrame} {i : Nat} (hi : i < f.pieces.length) :
    f.pieces[i]? = some (f.chunk i).bytes := by
  simp only [chunk, List.getD_eq_getElem?_getD, List.getElem?_eq_getElem hi, Option.getD_some]

theorem datagrams_fit {f : SentFrame} (hmax : 512 ≤ f.maxDatagramSize) {d : Bytes}
    (h : d ∈ f.datagrams datagramWire) : d.length ≤ f.maxDatagramSize := by
  obtain ⟨i, hi, rfl⟩ := List.mem_map.1 h
  have hmem := List.mem_of_getElem? (chunk_bytes (List.mem_range.1 hi))
  rw [datagram]
  exact encodeDatagram_fits hmax _ (length_le_of_mem_pieces hmem)

end SentFrame

/-- A tile of less than 2^32 bytes is split exactly, into datagrams that fit: one for each piece of
the tile in order, which says the index, the number of pieces and the tile's size and header. -/
theorem frameTileDatagrams_exact (tile : FrameTile) (channelId frameSeq : UInt64)
    (maxDatagramSize : Nat) (hmax : 512 ≤ maxDatagramSize) (hlen : tile.bytes.length < 2 ^ 32) :
    ∃ (datagrams payloads : List Bytes) (count : Nat),
      frameTileDatagrams datagramWire tile channelId frameSeq maxDatagramSize = .ok datagrams ∧
      (∀ d ∈ datagrams, d.length ≤ maxDatagramSize) ∧
      count = max 1 (divCeil tile.bytes.length (payloadLimit maxDatagramSize)) ∧
      datagrams.length = count ∧ payloads.length = count ∧
      payloads.flatten = tile.bytes ∧ (tile.bytes ≠ [] → ∀ p ∈ payloads, p ≠ []) ∧
      ∀ i < count, ∃ c : FrameTileChunk,
        datagrams[i]? = some (encodeDatagram datagramWire (.frameTileChunk c)) ∧
        c.channelId = channelId ∧ c.frameSeq = frameSeq ∧ c.chunkIndex.toNat = i ∧
        c.chunkCount.toNat = count ∧ c.totalLen.toNat = tile.bytes.length ∧
        c.header = .ofTile tile ∧ payloads[i]? = some c.bytes := by
  let f : SentFrame := { tile, channelId, frameSeq, maxDatagramSize }
  have hpieces := SentFrame.pieces_length_lt (f := f) hlen
  have hsplit := SentFrame.split_datagramWire (f := f) hmax hlen
  refine ⟨f.datagrams datagramWire, f.pieces, f.pieces.length, hsplit,
    fun d hd => SentFrame.datagrams_fit (f := f) hmax hd, f.pieces_length, ?_, rfl,
    f.pieces_flatten, fun htile p hp => SentFrame.ne_nil_of_mem_pieces htile hp, fun i hi => ?_⟩
  · rw [SentFrame.datagrams, List.length_map, List.length_range]
  · refine ⟨f.chunk i, ?_, rfl, rfl, ?_, ?_, ?_, rfl, SentFrame.chunk_bytes hi⟩
    · rw [SentFrame.datagrams, List.getElem?_map, List.getElem?_range hi]
      rfl
    · exact UInt32.toNat_ofNat_of_lt' (Nat.lt_trans hi hpieces)
    · exact UInt32.toNat_ofNat_of_lt' hpieces
    · exact UInt32.toNat_ofNat_of_lt' hlen

/-- A tile of 257 bytes takes two of the smallest datagrams. -/
theorem frameTileDatagrams_exact_two_pieces :
    ∃ (datagrams payloads : List Bytes) (count : Nat),
      frameTileDatagrams datagramWire
        { id := 7, x := 0, y := 0, w := 8, h := 8, stride := 32, encoding := .zstdRgba,
          bytes := List.replicate 257 1 } 7 1 512 = .ok datagrams ∧
      (∀ d ∈ datagrams, d.length ≤ 512) ∧
      count = max 1 (divCeil (List.replicate 257 (1 : UInt8)).length (payloadLimit 512)) ∧
      datagrams.length = count ∧ payloads.length = count ∧
      payloads.flatten = List.replicate 257 1 ∧
      (List.replicate 257 (1 : UInt8) ≠ [] → ∀ p ∈ payloads, p ≠ []) ∧
      ∀ i < count, ∃ c : FrameTileChunk,
        datagrams[i]? = some (encodeDatagram datagramWire (.frameTileChunk c)) ∧
        c.channelId = 7 ∧ c.frameSeq = 1 ∧ c.chunkIndex.toNat = i ∧ c.chunkCount.toNat = count ∧
        c.totalLen.toNat = (List.replicate 257 (1 : UInt8)).length ∧
        c.header = { id := 7, x := 0, y := 0, w := 8, h := 8, stride := 32,
                     encoding := .zstdRgba } ∧
        payloads[i]? = some c.bytes :=
  frameTileDatagrams_exact
    { id := 7, x := 0, y := 0, w := 8, h := 8, stride := 32, encoding := .zstdRgba,
      bytes := List.replicate 257 1 } 7 1 512 (Nat.le_refl _)
    (by rw [List.length_replicate]; decide)

end VBox
