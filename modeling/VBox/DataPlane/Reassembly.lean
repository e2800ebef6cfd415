import Mathlib.Data.List.ReduceOption
import VBox.DataPlane.Assembler

/-!
# DataPlane.Reassembly

The splitter of `crates/proto/src/data_plane.rs` against the reassembler of the client: which
frames come out, and when.

A frame's progress is the set of chunk indices that have arrived. `SentFrame.slot f seen` is the
slot that belongs to such a set, and `push_chunk` is the one step: a chunk of an unfinished frame
adds its index, and the index that completes the set returns the tile. The results are runs of this
step.

* `reassembly_recovers`: whatever was pushed before, a frame with a new key comes out.
* `split_reassembled_iff`: the frames that are split and not reassembled are those of more than
  16384 chunks.
-/

namespace VBox

open ByteCodec Slices FrameTileDatagramAssembler

/-- One turn of the client's datagram reader: a datagram that does not decode is dropped. -/
def receive (pc : Postcard DataPlaneDatagram) (a : FrameTileDatagramAssembler) (datagram : Bytes) :
    FrameTileDatagramAssembler × Option FrameTile :=
  match decodeDatagram pc datagram with
  | .ok (.frameTileChunk chunk) => a.push chunk
  | .error _ => (a, none)

/-- The reader's assembler after a list of datagrams. -/
abbrev received (pc : Postcard DataPlaneDatagram) (ds : List Bytes) : FrameTileDatagramAssembler :=
  Mealy.state (receive pc) default ds

/-- The chunks among a list of datagrams. -/
def decoded (pc : Postcard DataPlaneDatagram) (ds : List Bytes) : List FrameTileChunk :=
  ds.filterMap fun d =>
    match decodeDatagram pc d with
    | .ok (.frameTileChunk chunk) => some chunk
    | .error _ => none

namespace SentFrame

/-! ## One frame -/

/-- Within the caps of the receiver. -/
def Fits (f : SentFrame) : Prop :=
  f.pieces.length ≤ maxChunksPerFrame.toNat ∧ f.tile.bytes.length ≤ maxFrameBytes.toNat

/-- The slot of a frame whose chunks with index in `seen` have arrived. -/
def slot (f : SentFrame) (seen : Finset Nat) : PendingFrameTile :=
  { header := .ofTile f.tile, totalLen := f.tile.bytes.length, chunks := Cells.of f.pieces seen,
    received := (Cells.of f.pieces seen).stored }

/-- What the map holds for the frame: nothing before the first chunk and after the last. -/
def pendingSlot (f : SentFrame) (seen : Finset Nat) : Option PendingFrameTile :=
  if seen = ∅ ∨ Finset.range f.pieces.length ⊆ seen then none else some (f.slot seen)

section Chunk

variable {f : SentFrame} {seen : Finset Nat} {i : Nat}

@[simp] theorem chunk_key : (f.chunk i).key = f.key := rfl

theorem Fits.chunkCount_toNat (hf : f.Fits) : (f.chunk i).chunkCount.toNat = f.pieces.length := by
  have : f.pieces.length ≤ 16384 := hf.1
  rw [chunk, UInt32.toNat_ofNat']
  omega

theorem Fits.totalLen_toNat (hf : f.Fits) : (f.chunk i).totalLen.toNat = f.tile.bytes.length := by
  have : f.tile.bytes.length ≤ 67108864 := hf.2
  rw [chunk, UInt32.toNat_ofNat']
  omega

theorem chunkIndex_toNat (h : i < 2 ^ 32) : (f.chunk i).chunkIndex.toNat = i := by
  rw [chunk, UInt32.toNat_ofNat']
  omega

theorem Fits.index_lt (hf : f.Fits) (hi : i < f.pieces.length) : i < 2 ^ 32 := by
  have : f.pieces.length ≤ 16384 := hf.1
  omega

theorem Fits.acceptable (hf : f.Fits) (hi : i < f.pieces.length) : (f.chunk i).Acceptable := by
  have hpos := f.pieces_length_pos
  rw [FrameTileChunk.Acceptable, hf.chunkCount_toNat, hf.totalLen_toNat,
    chunkIndex_toNat (hf.index_lt hi)]
  exact ⟨hpos, hf.1, hi, hf.2⟩

theorem Fits.slot_matches (hf : f.Fits) : (f.slot seen).Matches (f.chunk i) :=
  ⟨hf.totalLen_toNat.symm, rfl, by rw [hf.chunkCount_toNat]; exact Cells.of_length⟩

theorem Fits.new_chunk (hf : f.Fits) : PendingFrameTile.new (f.chunk i) = f.slot ∅ := by
  simp only [PendingFrameTile.new, slot, hf.chunkCount_toNat, hf.totalLen_toNat, Cells.of_empty,
    Cells.stored_replicate_none]
  rfl

theorem getElem?_pieces (hi : i < f.pieces.length) : f.pieces[i]? = some (f.chunk i).bytes := by
  rw [chunk, List.getD_eq_getElem?_getD, List.getElem?_eq_getElem hi]
  rfl

theorem Fits.store_chunk (hf : f.Fits) (hi : i < f.pieces.length) (hseen : i ∉ seen) :
    (f.slot seen).store (f.chunk i) = f.slot (insert i seen) := by
  have hset : (Cells.of f.pieces seen).set i (some (f.chunk i).bytes) =
      Cells.of f.pieces (insert i seen) := Cells.set_of (getElem?_pieces hi)
  have hcell : (Cells.of f.pieces seen)[i]? = some none := by
    rw [Cells.of_getElem?, getElem?_pieces hi]
    simp [hseen]
  simp only [PendingFrameTile.store, slot, chunkIndex_toNat (hf.index_lt hi), ← hset,
    Cells.stored_set hcell]

/-- The slot with every cell full gives the tile back. -/
theorem intoTile_slot (h : Finset.range f.pieces.length ⊆ seen) :
    (f.slot seen).intoTile = some f.tile := by
  simp only [PendingFrameTile.intoTile, slot, Cells.joined_of, if_pos h, f.pieces_flatten]
  simp

/-- What a chunk of the frame does to the frame's slot. -/
theorem Fits.put_chunk (hf : f.Fits) (hi : i < f.pieces.length) :
    (f.slot seen).put (f.chunk i) =
      if i ∈ seen then (some (f.slot seen), none)
      else if Finset.range f.pieces.length ⊆ insert i seen then (none, some f.tile)
      else (some (f.slot (insert i seen)), none) := by
  have hcell : (((f.slot seen).chunks).getD (f.chunk i).chunkIndex.toNat none).isSome =
      decide (i ∈ seen) := by
    rw [chunkIndex_toNat (hf.index_lt hi)]
    exact Cells.of_getD hi
  have hm : ¬ ¬ (f.slot seen).Matches (f.chunk i) := not_not_intro hf.slot_matches
  rw [PendingFrameTile.put, if_neg hm, hcell]
  by_cases hseen : i ∈ seen
  · simp [hseen]
  · have hstore := hf.store_chunk hi hseen
    -- what is stored never exceeds the frame, so neither bound on `received` is hit
    have hrec : (f.slot seen).received + (f.chunk i).bytes.length ≤ f.tile.bytes.length := by
      have hle : (Cells.of f.pieces (insert i seen)).stored ≤ f.pieces.flatten.length :=
        Cells.stored_of_le
      have := congrArg PendingFrameTile.received hstore
      rw [f.pieces_flatten] at hle
      exact this.trans_le hle
    have hlen : f.tile.bytes.length ≤ 67108864 := hf.2
    have hsum : usizeCheckedAdd (f.slot seen).received (f.chunk i).bytes.length =
        some ((f.slot seen).received + (f.chunk i).bytes.length) := if_pos (by omega)
    have hany : (f.slot (insert i seen)).chunks.any Option.isNone ↔
        ¬ Finset.range f.pieces.length ⊆ insert i seen := by
      have hj : (f.slot (insert i seen)).chunks.joined = _ := Cells.joined_of
      have := Cells.isSome_joined_iff (f.slot (insert i seen)).chunks
      rw [hj] at this
      split at this <;> simp_all
    have htot : ¬ (f.slot seen).totalLen < (f.slot seen).received + (f.chunk i).bytes.length :=
      Nat.not_lt.2 hrec
    simp only [hseen, decide_false, Bool.false_eq_true, if_false, hsum, if_neg htot, hstore]
    by_cases hall : Finset.range f.pieces.length ⊆ insert i seen
    · rw [if_neg (fun h => hany.1 h hall), if_pos hall, intoTile_slot hall]
    · rw [if_pos (hany.2 hall), if_neg hall]

end Chunk

/-- A chunk of an unfinished frame adds its index to what has arrived; the one that completes the
frame returns the tile. -/
theorem Fits.push_chunk {f : SentFrame} (hf : f.Fits) {a : FrameTileDatagramAssembler}
    {seen : Finset Nat} {i : Nat} (hi : i < f.pieces.length)
    (hseen : ¬ Finset.range f.pieces.length ⊆ seen)
    (ha : a.pending.lookup f.key = f.pendingSlot seen) :
    (a.push (f.chunk i)).2 =
        (if Finset.range f.pieces.length ⊆ insert i seen then some f.tile else none) ∧
      (a.push (f.chunk i)).1.pending.lookup f.key = f.pendingSlot (insert i seen) := by
  have hslot : a.slotFor (f.chunk i) = f.slot seen := by
    rw [slotFor_eq, chunk_key, ha, pendingSlot]
    by_cases h0 : seen = ∅
    · subst h0; simp [hf.new_chunk]
    · simp [h0, hseen]
  have hacc := hf.acceptable hi
  have hne : insert i seen ≠ ∅ := Finset.insert_ne_empty i seen
  rw [push_tile hacc, lookup_push hacc, chunk_key, if_pos rfl, hslot, hf.put_chunk hi, pendingSlot]
  by_cases hmem : i ∈ seen
  · rw [Finset.insert_eq_of_mem hmem] at hne ⊢
    simp [hmem, hseen, hne]
  · by_cases hall : Finset.range f.pieces.length ⊆ insert i seen <;> simp [hmem, hall]

/-! ## Its datagrams -/

variable {pc : Postcard DataPlaneDatagram} {f g : SentFrame} {ds : List Bytes} {i j : Nat}

theorem decodeDatagram_datagram :
    decodeDatagram pc (f.datagram pc i) = .ok (.frameTileChunk (f.chunk i)) := by
  simp [decodeDatagram, datagram, encodeDatagram]

theorem receive_datagram (a : FrameTileDatagramAssembler) :
    receive pc a (f.datagram pc i) = a.push (f.chunk i) := by
  rw [receive, decodeDatagram_datagram]

/-- A datagram says which frame it is of, and which chunk. -/
theorem chunk_eq_of_datagram_eq (h : f.datagram pc i = g.datagram pc j) : f.chunk i = g.chunk j := by
  have := congrArg (decodeDatagram pc) h
  simpa only [decodeDatagram_datagram, Except.ok.injEq, DataPlaneDatagram.frameTileChunk.injEq] using
    this

theorem mem_datagrams {d : Bytes} :
    d ∈ f.datagrams pc ↔ ∃ i, i < f.pieces.length ∧ f.datagram pc i = d := by
  simp [datagrams]

/-- All datagrams of the frame have arrived. -/
def Complete (pc : Postcard DataPlaneDatagram) (f : SentFrame) (ds : List Bytes) : Prop :=
  ∀ d ∈ f.datagrams pc, d ∈ ds

instance (pc : Postcard DataPlaneDatagram) (f : SentFrame) (ds : List Bytes) :
    Decidable (f.Complete pc ds) :=
  inferInstanceAs (Decidable (∀ d ∈ f.datagrams pc, d ∈ ds))

/-- The indices that have arrived. -/
def seen (pc : Postcard DataPlaneDatagram) (f : SentFrame) (ds : List Bytes) : Finset Nat :=
  (Finset.range f.pieces.length).filter fun i => f.datagram pc i ∈ ds

@[simp] theorem seen_nil : f.seen pc [] = ∅ := by simp [seen]

theorem range_subset_seen : Finset.range f.pieces.length ⊆ f.seen pc ds ↔ f.Complete pc ds := by
  constructor
  · intro h d hd
    obtain ⟨i, hi, rfl⟩ := mem_datagrams.1 hd
    exact (Finset.mem_filter.1 (h (Finset.mem_range.2 hi))).2
  · intro h i hi
    exact Finset.mem_filter.2 ⟨hi, h _ (mem_datagrams.2 ⟨i, Finset.mem_range.1 hi, rfl⟩)⟩

theorem Fits.seen_concat (hf : f.Fits) (hi : i < f.pieces.length) :
    f.seen pc (ds ++ [f.datagram pc i]) = insert i (f.seen pc ds) := by
  ext j
  simp only [seen, Finset.mem_filter, Finset.mem_range, List.mem_append, List.mem_singleton,
    Finset.mem_insert]
  constructor
  · rintro ⟨hj, hmem | heq⟩
    · exact .inr ⟨hj, hmem⟩
    · have := congrArg (·.chunkIndex.toNat) (chunk_eq_of_datagram_eq heq)
      simp only [chunkIndex_toNat (hf.index_lt hj), chunkIndex_toNat (hf.index_lt hi)] at this
      exact .inl this
  · rintro (rfl | ⟨hj, hmem⟩)
    · exact ⟨hi, .inr rfl⟩
    · exact ⟨hj, .inl hmem⟩

theorem seen_concat_other (hne : f.key ≠ g.key) :
    f.seen pc (ds ++ [g.datagram pc j]) = f.seen pc ds := by
  apply Finset.filter_congr
  intro i _
  simp only [List.mem_append, List.mem_singleton, or_iff_left_iff_imp]
  intro heq
  exact absurd (congrArg FrameTileChunk.key (chunk_eq_of_datagram_eq heq)) hne

@[simp] theorem pendingSlot_empty : f.pendingSlot ∅ = none := by simp [pendingSlot]

/-- `push_chunk`, in terms of the datagrams that have arrived. -/
theorem Fits.receive_datagram (hf : f.Fits) {a : FrameTileDatagramAssembler}
    (hi : i < f.pieces.length) (hinc : ¬ f.Complete pc ds)
    (ha : a.pending.lookup f.key = f.pendingSlot (f.seen pc ds)) :
    (receive pc a (f.datagram pc i)).2 =
        (if f.Complete pc (ds ++ [f.datagram pc i]) then some f.tile else none) ∧
      (receive pc a (f.datagram pc i)).1.pending.lookup f.key =
        f.pendingSlot (f.seen pc (ds ++ [f.datagram pc i])) := by
  rw [← range_subset_seen] at hinc
  obtain ⟨htile, hslot⟩ := hf.push_chunk hi hinc ha
  rw [SentFrame.receive_datagram, hf.seen_concat hi, htile, hslot]
  refine ⟨?_, rfl⟩
  rw [← hf.seen_concat hi]
  simp only [range_subset_seen]

/-- While the frame is incomplete its datagrams return nothing, and the slot follows them. -/
theorem Fits.run_incomplete (hf : f.Fits) {a : FrameTileDatagramAssembler}
    (ha : a.pending.lookup f.key = none) (hds : ∀ d ∈ ds, d ∈ f.datagrams pc)
    (hinc : ¬ f.Complete pc ds) :
    (Mealy.state (receive pc) a ds).pending.lookup f.key = f.pendingSlot (f.seen pc ds) ∧
      Mealy.outputs (receive pc) a ds = List.replicate ds.length none := by
  induction ds using List.reverseRecOn with
  | nil => exact ⟨by simpa using ha, rfl⟩
  | append_singleton ds d ih =>
    have hinc' : ¬ f.Complete pc ds :=
      fun h => hinc fun x hx => List.mem_append_left _ (h x hx)
    obtain ⟨hslot, hout⟩ := ih (fun x hx => hds x (List.mem_append_left _ hx)) hinc'
    obtain ⟨i, hi, rfl⟩ := mem_datagrams.1 (hds d (by simp))
    obtain ⟨htile, hnext⟩ := hf.receive_datagram hi hinc' hslot
    rw [Mealy.state_concat, Mealy.outputs_concat, hout, htile, if_neg hinc]
    exact ⟨hnext, by simp [List.replicate_succ']⟩

/-- The frame comes out with its last missing datagram, if its key was not in the map. -/
theorem Fits.run_complete (hf : f.Fits) {a : FrameTileDatagramAssembler}
    (ha : a.pending.lookup f.key = none) {d : Bytes} (hds : ∀ x ∈ ds ++ [d], x ∈ f.datagrams pc)
    (hall : ∀ x ∈ f.datagrams pc, x ∈ ds ++ [d]) (hlast : d ∉ ds) :
    Mealy.outputs (receive pc) a (ds ++ [d]) = List.replicate ds.length none ++ [some f.tile] := by
  have hinc : ¬ f.Complete pc ds := fun h => hlast (h d (hds d (by simp)))
  obtain ⟨hslot, hout⟩ :=
    hf.run_incomplete ha (fun x hx => hds x (List.mem_append_left _ hx)) hinc
  obtain ⟨i, hi, rfl⟩ := mem_datagrams.1 (hds d (by simp))
  rw [Mealy.outputs_concat, hout, (hf.receive_datagram hi hinc hslot).1,
    if_pos (show f.Complete pc _ from hall)]

end SentFrame

/-! ## A new frame after any history -/

theorem received_eq_run (pc : Postcard DataPlaneDatagram) (ds : List Bytes) :
    received pc ds = run (decoded pc ds) := by
  induction ds using List.reverseRecOn with
  | nil => rfl
  | append_singleton ds d ih =>
    have happ : decoded pc (ds ++ [d]) = decoded pc ds ++ decoded pc [d] := List.filterMap_append
    unfold received run at ih ⊢
    rw [Mealy.state_concat, ih, happ, Mealy.state_append, receive]
    cases h : decodeDatagram pc d with
    | error e => simp [decoded, h]
    | ok datagram =>
      obtain ⟨chunk⟩ := datagram
      simp [decoded, h, Mealy.state]

/-- A push opens no slot but its own. -/
theorem lookup_push_none {a : FrameTileDatagramAssembler} {c : FrameTileChunk} {k : UInt64 × UInt64}
    (hne : k ≠ c.key) (ha : a.pending.lookup k = none) : (a.push c).1.pending.lookup k = none := by
  by_cases hacc : c.Acceptable
  · rw [lookup_push hacc, if_neg hne]
    cases hl : (a.makeRoom c.key).lookup k with
    | none => rfl
    | some slot => rw [lookup_of_makeRoom hl] at ha; cases ha
  · rw [push_of_not_acceptable hacc]
    exact ha

theorem lookup_run_of_unused {k : UInt64 × UInt64} {hist : List FrameTileChunk}
    (h : ∀ c ∈ hist, c.key ≠ k) : (run hist).pending.lookup k = none := by
  induction hist using List.reverseRecOn with
  | nil => exact lookup_default k
  | append_singleton hist c ih =>
    unfold run at ih ⊢
    rw [Mealy.state_concat]
    exact lookup_push_none (h c (by simp)).symm (ih fun c' hc' => h c' (List.mem_append_left _ hc'))

/-- **Recovery from loss.** Whatever datagrams came before, as long as none of them used the key of
the frame: once all datagrams of the frame arrive, in any order and with repeats before the last
missing one, that one returns the tile and the others return nothing. -/
theorem reassembly_recovers (pc : Postcard DataPlaneDatagram) {f : SentFrame}
    {datagrams hist : List Bytes} (ds : List Bytes) (d : Bytes) (hsplit : f.split pc = .ok datagrams)
    (hcount : datagrams.length ≤ maxChunksPerFrame.toNat)
    (hlen : f.tile.bytes.length ≤ maxFrameBytes.toNat)
    (hnew : ∀ c ∈ decoded pc hist, c.key ≠ f.key)
    (harrive : ∀ x ∈ ds ++ [d], x ∈ datagrams) (hall : ∀ x ∈ datagrams, x ∈ ds ++ [d])
    (hlast : d ∉ ds) :
    Mealy.outputs (receive pc) (received pc hist) (ds ++ [d]) =
      List.replicate ds.length none ++ [some f.tile] := by
  obtain ⟨rfl, -, -⟩ := SentFrame.split_ok hsplit
  have hf : f.Fits := ⟨by simpa [SentFrame.datagrams] using hcount, hlen⟩
  refine hf.run_complete ?_ harrive hall hlast
  rw [received_eq_run]
  exact lookup_run_of_unused hnew

/-- A tile of `len` bytes, for a path with the smallest datagrams. -/
def sampleFrame (channelId frameSeq : UInt64) (len : Nat) : SentFrame :=
  { tile := { id := channelId, x := 0, y := 0, w := 8, h := 8, stride := 32, encoding := .zstdRgba,
              bytes := List.replicate len 1 }
    channelId, frameSeq, maxDatagramSize := 512 }

theorem sampleFrame_split (channelId frameSeq : UInt64) {len : Nat} (h : len < 2 ^ 32) :
    (sampleFrame channelId frameSeq len).split datagramWire =
      .ok ((sampleFrame channelId frameSeq len).datagrams datagramWire) :=
  SentFrame.split_datagramWire (Nat.le_refl 512) (by rwa [sampleFrame, List.length_replicate])

/-- After half of an older frame and a datagram that does not decode, a frame in two pieces arrives
last piece first, and that one twice. -/
theorem reassembly_recovers_after_partial_frame :
    Mealy.outputs (receive datagramWire)
        (received datagramWire [(sampleFrame 7 1 257).datagram datagramWire 0, [9]])
        [(sampleFrame 7 2 257).datagram datagramWire 1, (sampleFrame 7 2 257).datagram datagramWire 1,
          (sampleFrame 7 2 257).datagram datagramWire 0] =
      [none, none, some (sampleFrame 7 2 257).tile] :=
  reassembly_recovers datagramWire (f := sampleFrame 7 2 257)
    [(sampleFrame 7 2 257).datagram datagramWire 1, (sampleFrame 7 2 257).datagram datagramWire 1]
    ((sampleFrame 7 2 257).datagram datagramWire 0)
    (sampleFrame_split 7 2 (by decide))
    (by decide +kernel) (by decide +kernel) (by decide +kernel) (by decide +kernel)
    (by decide +kernel) (by decide +kernel)

/-! ## What is split and what is reassembled -/

/-- The tiles an empty reassembler returns for a list of datagrams, in order. -/
def emitted (pc : Postcard DataPlaneDatagram) (ds : List Bytes) : List FrameTile :=
  (Mealy.outputs (receive pc) default ds).reduceOption

namespace SentFrame

variable {pc : Postcard DataPlaneDatagram} {f : SentFrame} {ds : List Bytes}

/-- A frame within the caps is returned once, whatever the order of its datagrams. -/
theorem Fits.emitted_of_perm (hf : f.Fits) (hds : ds.Perm (f.datagrams pc)) :
    emitted pc ds = [f.tile] := by
  have hinj : ∀ i ∈ List.range f.pieces.length, ∀ j ∈ List.range f.pieces.length,
      f.datagram pc i = f.datagram pc j → i = j := by
    intro i hi j hj heq
    have := congrArg (·.chunkIndex.toNat) (chunk_eq_of_datagram_eq heq)
    rwa [chunkIndex_toNat (hf.index_lt (List.mem_range.1 hi)),
      chunkIndex_toNat (hf.index_lt (List.mem_range.1 hj))] at this
  have hnodup : ds.Nodup := hds.nodup_iff.2 (List.nodup_range.map_on hinj)
  obtain rfl | ⟨init, last, rfl⟩ := List.eq_nil_or_concat ds
  · have := hds.length_eq
    have := f.pieces_length_pos
    simp [datagrams] at *
    omega
  rw [List.concat_eq_append] at *
  have hlast : last ∉ init := by
    intro h
    exact (List.disjoint_of_nodup_append hnodup) h (List.mem_singleton_self _)
  rw [emitted, hf.run_complete (lookup_default _) (fun x hx => hds.mem_iff.1 hx)
    (fun x hx => hds.mem_iff.2 hx) hlast, List.reduceOption_append,
    List.reduceOption_replicate_none]
  rfl

/-- The cap on chunks is checked against the count each chunk announces, so above it every chunk is
turned away. -/
theorem emitted_of_too_many (hcount : maxChunksPerFrame.toNat < f.pieces.length)
    (hlt : f.pieces.length < 2 ^ 32) (hds : ∀ d ∈ ds, d ∈ f.datagrams pc) : emitted pc ds = [] := by
  have hignored : ∀ d ∈ ds, receive pc default d = (default, none) := by
    intro d hd
    obtain ⟨i, hi, rfl⟩ := mem_datagrams.1 (hds d hd)
    rw [SentFrame.receive_datagram]
    apply push_of_not_acceptable
    rintro ⟨-, hle, -⟩
    have : (f.chunk i).chunkCount.toNat = f.pieces.length := by
      rw [chunk, UInt32.toNat_ofNat', Nat.mod_eq_of_lt hlt]
    omega
  rw [emitted, Mealy.outputs_of_ignored hignored, List.reduceOption_replicate_none]

end SentFrame

/-- **Splitter against reassembler.** A frame that `frame_tile_datagrams` splits is returned by an
empty reassembler, whatever the order of its datagrams, exactly when it has at most 16384 chunks.
The cap on the total length adds nothing: 16384 chunks of at most 944 bytes stay below it. -/
theorem split_reassembled_iff (pc : Postcard DataPlaneDatagram) {f : SentFrame}
    {datagrams : List Bytes} (hsplit : f.split pc = .ok datagrams) :
    (∀ order : List Bytes, order.Perm datagrams → emitted pc order = [f.tile]) ↔
      divCeil f.tile.bytes.length (payloadLimit f.maxDatagramSize) ≤ maxChunksPerFrame.toNat := by
  obtain ⟨rfl, -, hlt⟩ := SentFrame.split_ok hsplit
  have hcap : maxChunksPerFrame.toNat = 16384 := rfl
  have hpieces := f.pieces_length
  constructor
  · intro h
    by_contra hgt
    have := h _ (.refl _)
    rw [SentFrame.emitted_of_too_many (by omega) hlt fun d hd => hd] at this
    cases this
  · intro hle order horder
    have hlim := payloadLimit_bounds f.maxDatagramSize
    have hlen : f.tile.bytes.length ≤ 16384 * payloadLimit f.maxDatagramSize :=
      (divCeil_le_iff (by omega)).1 hle
    have hmax : maxFrameBytes.toNat = 67108864 := rfl
    have hf : f.Fits := ⟨by omega, by omega⟩
    exact hf.emitted_of_perm horder

theorem split_reassembled_iff_two_chunks :
    emitted datagramWire
        [(sampleFrame 7 1 257).datagram datagramWire 1, (sampleFrame 7 1 257).datagram datagramWire 0] =
      [(sampleFrame 7 1 257).tile] := by
  have hpieces : (sampleFrame 7 1 257).pieces.length = 2 := by decide +kernel
  refine (split_reassembled_iff datagramWire (sampleFrame_split 7 1 (by decide))).2
    (by decide +kernel) _ ?_
  rw [SentFrame.datagrams, hpieces]
  exact List.Perm.swap _ _ _

/-- A raw 3840 by 2160 screen, on a path with 1200-byte datagrams. -/
def rawScreenFrame : SentFrame :=
  { tile := { id := 7, x := 0, y := 0, w := 3840, h := 2160, stride := 15360, encoding := .rawRgba,
              bytes := List.replicate (15360 * 2160) 0 }
    channelId := 7, frameSeq := 1, maxDatagramSize := 1200 }

theorem rawScreenFrame_length : rawScreenFrame.tile.bytes.length = 33177600 :=
  List.length_replicate

/-- The frame passes `encode_frame` and is split, but none of its 35146 chunks is accepted. -/
theorem raw_screen_frame_lost :
    (∃ frame, encodeFrame messageWire (.frameTile rawScreenFrame.tile) = .ok frame) ∧
    ∃ datagrams, rawScreenFrame.split datagramWire = .ok datagrams ∧
      emitted datagramWire datagrams = [] ∧
      ¬ ∀ order : List Bytes, order.Perm datagrams →
        emitted datagramWire order = [rawScreenFrame.tile] := by
  have hlen := rawScreenFrame_length
  refine ⟨?_, rawScreenFrame.datagrams datagramWire,
    SentFrame.split_datagramWire (by decide) (by omega), ?_⟩
  · have hsize := messageWire_frameTile_length (t := rawScreenFrame.tile) (by omega)
    have hmax : maxFrameBytes.toNat = 67108864 := rfl
    cases h : encodeFrame messageWire (.frameTile rawScreenFrame.tile) with
    | ok frame => exact ⟨frame, rfl⟩
    | error e =>
      have := encodeFrame_error_iff.1 ⟨e, h⟩
      omega
  · have hcount : rawScreenFrame.pieces.length = 35146 := by
      rw [rawScreenFrame.pieces_length, hlen]
      decide +kernel
    have hnil : emitted datagramWire (rawScreenFrame.datagrams datagramWire) = [] :=
      SentFrame.emitted_of_too_many (by rw [hcount]; decide) (by omega) fun d hd => hd
    refine ⟨hnil, fun h => ?_⟩
    have := h _ (.refl _)
    rw [hnil] at this
    cases this

end VBox
