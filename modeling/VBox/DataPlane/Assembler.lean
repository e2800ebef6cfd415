import Mathlib.Data.Finmap
import VBox.Lib.Mealy
import VBox.DataPlane.Datagram

/-!
# DataPlane.Assembler

The client's datagram reassembler (`FrameTileDatagramAssembler` in
`crates/client/src/data_plane/quic.rs`) against a peer that sends anything.

`push` is the source's function, cut where the source first holds a slot: `makeRoom` is what
happens to the map before, `PendingFrameTile.put` what happens to the slot. `put_cases` says once
what `put` can do, `lookup_push` what a push does to every key.

* `assembler_safe`: after any chunks, the bounds of `Safe` hold, and a tile that is returned was
  put together from chunks pushed since its slot was created.
-/

namespace VBox

open ByteCodec Slices

def maxPendingFrames : Nat := 32

def maxChunksPerFrame : UInt32 := 16384

def FrameTileChunk.key (chunk : FrameTileChunk) : UInt64 × UInt64 :=
  (chunk.channelId, chunk.frameSeq)

/-- `usize::checked_add` -/
def usizeCheckedAdd (a b : Nat) : Option Nat := if a + b < 2 ^ 64 then some (a + b) else none

structure PendingFrameTile where
  header : FrameTileHeader
  totalLen : Nat
  chunks : Cells UInt8
  received : Nat

namespace PendingFrameTile

/-- The slot a first chunk opens. -/
def new (chunk : FrameTileChunk) : PendingFrameTile :=
  { header := chunk.header, totalLen := chunk.totalLen.toNat,
    chunks := List.replicate chunk.chunkCount.toNat none, received := 0 }

def Matches (slot : PendingFrameTile) (chunk : FrameTileChunk) : Prop :=
  slot.totalLen = chunk.totalLen.toNat ∧ slot.header = chunk.header ∧
    slot.chunks.length = chunk.chunkCount.toNat

instance (slot : PendingFrameTile) (chunk : FrameTileChunk) : Decidable (slot.Matches chunk) :=
  inferInstanceAs (Decidable (_ ∧ _ ∧ _))

/-- The slot with the chunk in its cell. -/
def store (slot : PendingFrameTile) (chunk : FrameTileChunk) : PendingFrameTile :=
  { slot with
    received := slot.received + chunk.bytes.length
    chunks := slot.chunks.set chunk.chunkIndex.toNat (some chunk.bytes) }

/-- The end of `push`, on a slot that was removed with all its cells full. -/
def intoTile (slot : PendingFrameTile) : Option FrameTile :=
  match slot.chunks.joined with
  | none => none
  | some bytes => if bytes.length ≠ slot.totalLen then none else some (slot.header.intoTile bytes)

/-- What `push` does with the slot of the chunk's key: what is left under the key (`none` when the
slot is removed) and the tile that is returned. -/
def put (slot : PendingFrameTile) (chunk : FrameTileChunk) :
    Option PendingFrameTile × Option FrameTile :=
  if ¬ slot.Matches chunk then (none, none)
  else if (slot.chunks.getD chunk.chunkIndex.toNat none).isSome then (some slot, none)
  else
    match usizeCheckedAdd slot.received chunk.bytes.length with
    | none => (some slot, none)
    | some received =>
      if slot.totalLen < received then (none, none)
      else if (slot.store chunk).chunks.any Option.isNone then (some (slot.store chunk), none)
      else (none, (slot.store chunk).intoTile)

end PendingFrameTile

structure FrameTileDatagramAssembler where
  pending : Finmap fun _ : UInt64 × UInt64 => PendingFrameTile

namespace FrameTileDatagramAssembler

def default : FrameTileDatagramAssembler := { pending := ∅ }

/-- A new key that finds the map full clears it. -/
def makeRoom (a : FrameTileDatagramAssembler) (key : UInt64 × UInt64) :
    Finmap fun _ : UInt64 × UInt64 => PendingFrameTile :=
  if key ∉ a.pending ∧ maxPendingFrames ≤ a.pending.keys.card then ∅ else a.pending

/-- `pending.entry(key).or_insert_with(..)`, once there is room. -/
def slotFor (a : FrameTileDatagramAssembler) (chunk : FrameTileChunk) : PendingFrameTile :=
  ((a.makeRoom chunk.key).lookup chunk.key).getD (.new chunk)

def push (a : FrameTileDatagramAssembler) (chunk : FrameTileChunk) :
    FrameTileDatagramAssembler × Option FrameTile :=
  if chunk.chunkCount = 0 ∨ maxChunksPerFrame < chunk.chunkCount ∨
      chunk.chunkCount ≤ chunk.chunkIndex then (a, none)
  else if maxFrameBytes < chunk.totalLen then (a, none)
  else
    match (a.slotFor chunk).put chunk with
    | (some slot, tile) => ({ pending := (a.makeRoom chunk.key).insert chunk.key slot }, tile)
    | (none, tile) => ({ pending := (a.makeRoom chunk.key).erase chunk.key }, tile)

end FrameTileDatagramAssembler

/-! ## What one push does -/

/-- The chunks that pass the checks at the top of `push`. -/
def FrameTileChunk.Acceptable (chunk : FrameTileChunk) : Prop :=
  0 < chunk.chunkCount.toNat ∧ chunk.chunkCount.toNat ≤ maxChunksPerFrame.toNat ∧
    chunk.chunkIndex.toNat < chunk.chunkCount.toNat ∧ chunk.totalLen.toNat ≤ maxFrameBytes.toNat

theorem FrameTileChunk.acceptable_iff {chunk : FrameTileChunk} :
    chunk.Acceptable ↔
      ¬ (chunk.chunkCount = 0 ∨ maxChunksPerFrame < chunk.chunkCount ∨
        chunk.chunkCount ≤ chunk.chunkIndex) ∧ ¬ maxFrameBytes < chunk.totalLen := by
  simp only [Acceptable, not_or, ← UInt32.toNat_inj, UInt32.lt_iff_toNat_lt, UInt32.le_iff_toNat_le,
    UInt32.toNat_zero]
  omega

namespace PendingFrameTile

/-- A chunk is turned away with its slot, ignored, or stored; a stored chunk that fills the last
cell ends the slot. -/
theorem put_cases (slot : PendingFrameTile) (chunk : FrameTileChunk) :
    slot.put chunk = (none, none) ∨
    (slot.Matches chunk ∧ slot.put chunk = (some slot, none)) ∨
    (slot.Matches chunk ∧ slot.chunks.getD chunk.chunkIndex.toNat none = none ∧
      slot.received + chunk.bytes.length ≤ slot.totalLen ∧
      slot.put chunk =
        if (slot.store chunk).chunks.any Option.isNone then (some (slot.store chunk), none)
        else (none, (slot.store chunk).intoTile)) := by
  unfold put
  split
  · exact .inl rfl
  rename_i hm
  replace hm : slot.Matches chunk := Decidable.not_not.1 hm
  split
  · exact .inr (.inl ⟨hm, rfl⟩)
  rename_i hcell
  cases hsum : usizeCheckedAdd slot.received chunk.bytes.length with
  | none => exact .inr (.inl ⟨hm, rfl⟩)
  | some received =>
    obtain rfl : slot.received + chunk.bytes.length = received := by
      unfold usizeCheckedAdd at hsum
      split at hsum
      · simpa using hsum
      · cases hsum
    dsimp only
    split
    · exact .inl rfl
    · rename_i hle
      exact .inr (.inr ⟨hm, by simpa using hcell, by omega, rfl⟩)

theorem intoTile_eq_some {slot : PendingFrameTile} {tile : FrameTile}
    (h : slot.intoTile = some tile) :
    ∃ ps : List Bytes, slot.chunks = ps.map some ∧ tile = slot.header.intoTile ps.flatten ∧
      ps.flatten.length = slot.totalLen := by
  unfold intoTile at h
  split at h
  · cases h
  rename_i bytes hjoin
  obtain ⟨ps, hps, rfl⟩ := Cells.joined_eq_some_iff.1 hjoin
  split at h
  · cases h
  · rename_i hlen
    cases h
    exact ⟨ps, hps, rfl, by simpa using hlen⟩

end PendingFrameTile

namespace FrameTileDatagramAssembler

variable {a : FrameTileDatagramAssembler} {chunk : FrameTileChunk}

theorem push_of_not_acceptable (h : ¬ chunk.Acceptable) : a.push chunk = (a, none) := by
  rw [FrameTileChunk.acceptable_iff] at h
  unfold push
  split
  · rfl
  rename_i hcount
  split
  · rfl
  rename_i htotal
  exact absurd ⟨hcount, htotal⟩ h

theorem push_of_acceptable (h : chunk.Acceptable) :
    a.push chunk =
      match (a.slotFor chunk).put chunk with
      | (some slot, tile) => ({ pending := (a.makeRoom chunk.key).insert chunk.key slot }, tile)
      | (none, tile) => ({ pending := (a.makeRoom chunk.key).erase chunk.key }, tile) := by
  obtain ⟨hcount, htotal⟩ := FrameTileChunk.acceptable_iff.1 h
  rw [push, if_neg hcount, if_neg htotal]

theorem push_tile (h : chunk.Acceptable) : (a.push chunk).2 = ((a.slotFor chunk).put chunk).2 := by
  rw [push_of_acceptable h]
  split <;> simp_all

/-- A push decides the chunk's own key by its slot; every other key only depends on whether the
map was cleared. -/
theorem lookup_push (h : chunk.Acceptable) (k : UInt64 × UInt64) :
    (a.push chunk).1.pending.lookup k =
      if k = chunk.key then ((a.slotFor chunk).put chunk).1 else (a.makeRoom chunk.key).lookup k := by
  rw [push_of_acceptable h]
  split <;> rename_i hput <;> by_cases hk : k = chunk.key
  · subst hk; simp [hput, Finmap.lookup_insert]
  · simp [hk, Finmap.lookup_insert_of_ne]
  · subst hk; simp [hput, Finmap.lookup_erase]
  · simp [hk, Finmap.lookup_erase_ne]

theorem makeRoom_cases (key : UInt64 × UInt64) :
    a.makeRoom key = a.pending ∨ (key ∉ a.pending ∧ a.makeRoom key = ∅) := by
  unfold makeRoom
  split
  · rename_i h; exact .inr ⟨h.1, rfl⟩
  · exact .inl rfl

/-- Clearing never touches the key it makes room for. -/
theorem lookup_makeRoom_self (key : UInt64 × UInt64) :
    (a.makeRoom key).lookup key = a.pending.lookup key := by
  obtain h | ⟨hkey, h⟩ := a.makeRoom_cases key
  · rw [h]
  · rw [h, Finmap.lookup_empty, Finmap.lookup_eq_none.2 hkey]

theorem lookup_of_makeRoom {key k : UInt64 × UInt64} {slot : PendingFrameTile}
    (h : (a.makeRoom key).lookup k = some slot) : a.pending.lookup k = some slot := by
  obtain hr | ⟨-, hr⟩ := a.makeRoom_cases key
  · rwa [hr] at h
  · rw [hr, Finmap.lookup_empty] at h; cases h

theorem slotFor_eq : a.slotFor chunk = (a.pending.lookup chunk.key).getD (.new chunk) := by
  rw [slotFor, lookup_makeRoom_self]

end FrameTileDatagramAssembler

/-! ## Bounds -/

structure PendingFrameTile.Bounded (slot : PendingFrameTile) : Prop where
  cells : slot.chunks.length ≤ maxChunksPerFrame.toNat
  total : slot.totalLen ≤ maxFrameBytes.toNat
  received_eq : slot.received = slot.chunks.stored
  received_le : slot.received ≤ slot.totalLen

structure FrameTileDatagramAssembler.Safe (a : FrameTileDatagramAssembler) : Prop where
  pending_le : a.pending.keys.card ≤ maxPendingFrames
  slots : ∀ k slot, a.pending.lookup k = some slot → slot.Bounded

namespace PendingFrameTile

theorem new_bounded {chunk : FrameTileChunk} (h : chunk.Acceptable) : (new chunk).Bounded := by
  obtain ⟨-, hcount, -, htotal⟩ := h
  refine ⟨by simpa [new] using hcount, htotal, ?_, Nat.zero_le _⟩
  rw [new, Cells.stored_replicate_none]

theorem store_bounded {slot : PendingFrameTile} {chunk : FrameTileChunk} (hs : slot.Bounded)
    (hm : slot.Matches chunk) (hi : chunk.chunkIndex.toNat < chunk.chunkCount.toNat)
    (hcell : slot.chunks.getD chunk.chunkIndex.toNat none = none)
    (hle : slot.received + chunk.bytes.length ≤ slot.totalLen) : (slot.store chunk).Bounded := by
  obtain ⟨-, -, hlen⟩ := hm
  have hcell' : slot.chunks[chunk.chunkIndex.toNat]? = some none := by
    rw [List.getD_eq_getElem?_getD] at hcell
    rw [List.getElem?_eq_getElem (by omega)] at hcell ⊢
    simpa using hcell
  refine ⟨by simpa [store] using hs.cells, hs.total, ?_, hle⟩
  rw [store, Cells.stored_set hcell', hs.received_eq]

theorem put_bounded {slot slot' : PendingFrameTile} {chunk : FrameTileChunk} (hs : slot.Bounded)
    (hi : chunk.chunkIndex.toNat < chunk.chunkCount.toNat)
    (h : (slot.put chunk).1 = some slot') : slot'.Bounded := by
  obtain hp | ⟨-, hp⟩ | ⟨hm, hcell, hle, hp⟩ := slot.put_cases chunk
  · rw [hp] at h; cases h
  · rw [hp] at h; cases h; exact hs
  · rw [hp] at h
    split at h
    · cases h; exact store_bounded hs hm hi hcell hle
    · cases h

end PendingFrameTile

namespace FrameTileDatagramAssembler

variable {a : FrameTileDatagramAssembler} {chunk : FrameTileChunk}

theorem Safe.slotFor_bounded (ha : a.Safe) (h : chunk.Acceptable) : (a.slotFor chunk).Bounded := by
  rw [slotFor_eq]
  cases hl : a.pending.lookup chunk.key with
  | none => exact PendingFrameTile.new_bounded h
  | some slot => exact ha.slots _ _ hl

/-- The map before a push leaves a place for the key, unless the key has one. -/
theorem Safe.makeRoom_card (ha : a.Safe) (key : UInt64 × UInt64) :
    (insert key (a.makeRoom key).keys).card ≤ maxPendingFrames := by
  have hle := ha.pending_le
  unfold makeRoom
  split
  · simp [maxPendingFrames]
  · rename_i h
    by_cases hk : key ∈ a.pending
    · rwa [Finset.insert_eq_self.2 (Finmap.mem_keys.2 hk)]
    · have hlt : a.pending.keys.card < maxPendingFrames := by
        by_contra hge
        exact h ⟨hk, by omega⟩
      have := Finset.card_insert_le key a.pending.keys
      omega

theorem keys_push_subset (h : chunk.Acceptable) :
    (a.push chunk).1.pending.keys ⊆ insert chunk.key (a.makeRoom chunk.key).keys := by
  intro k hk
  rw [Finmap.mem_keys, ← Finmap.lookup_isSome, lookup_push h] at hk
  rw [Finset.mem_insert, Finmap.mem_keys, ← Finmap.lookup_isSome]
  split at hk
  · rename_i hkey; exact .inl hkey
  · exact .inr hk

theorem Safe.push (ha : a.Safe) (chunk : FrameTileChunk) : (a.push chunk).1.Safe := by
  by_cases hacc : chunk.Acceptable
  · refine ⟨?_, fun k slot hk => ?_⟩
    · exact (Finset.card_le_card (keys_push_subset hacc)).trans (ha.makeRoom_card chunk.key)
    · rw [lookup_push hacc] at hk
      split at hk
      · exact PendingFrameTile.put_bounded (ha.slotFor_bounded hacc) hacc.2.2.1 hk
      · exact ha.slots k slot (lookup_of_makeRoom hk)
  · rw [push_of_not_acceptable hacc]; exact ha

@[simp] theorem lookup_default (k : UInt64 × UInt64) : default.pending.lookup k = none :=
  Finmap.lookup_empty k

theorem safe_default : default.Safe := by
  refine ⟨by decide, fun k slot h => ?_⟩
  rw [lookup_default] at h
  cases h

end FrameTileDatagramAssembler

/-! ## Where the bytes of a slot come from -/

namespace FrameTileDatagramAssembler

/-- The assembler after a sequence of chunks. -/
abbrev run (hist : List FrameTileChunk) : FrameTileDatagramAssembler :=
  Mealy.state push default hist

/-- The slot of `k` was created by the first chunk of `since`, pushed after `before`, and has stayed
in the map since. -/
def Lifetime (k : UInt64 × UInt64) (before since : List FrameTileChunk) : Prop :=
  k ∉ (run before).pending ∧
    ∀ part, part <+: since → part ≠ [] → k ∈ (run (before ++ part)).pending

theorem Lifetime.start {k : UInt64 × UInt64} {before : List FrameTileChunk}
    (h : k ∉ (run before).pending) : Lifetime k before [] :=
  ⟨h, fun _ hpart hne => absurd (List.prefix_nil.1 hpart) hne⟩

theorem Lifetime.concat {k : UInt64 × UInt64} {before since : List FrameTileChunk}
    (h : Lifetime k before since) {chunk : FrameTileChunk}
    (hk : k ∈ (run (before ++ since ++ [chunk])).pending) : Lifetime k before (since ++ [chunk]) := by
  refine ⟨h.1, fun part hpart hne => ?_⟩
  rw [List.prefix_concat_iff] at hpart
  obtain rfl | hpart := hpart
  · rwa [← List.append_assoc]
  · exact h.2 part hpart hne

end FrameTileDatagramAssembler

/-- The chunk that belongs in cell `i` of the slot, with the given payload. -/
def FrameTileChunk.Fills (chunk : FrameTileChunk) (k : UInt64 × UInt64) (slot : PendingFrameTile)
    (i : Nat) (bytes : Bytes) : Prop :=
  chunk.key = k ∧ chunk.header = slot.header ∧ chunk.chunkCount.toNat = slot.chunks.length ∧
    chunk.totalLen.toNat = slot.totalLen ∧ chunk.chunkIndex.toNat = i ∧ chunk.bytes = bytes

/-- Every full cell was filled by one of `chunks`. -/
def PendingFrameTile.FilledBy (slot : PendingFrameTile) (k : UInt64 × UInt64)
    (chunks : List FrameTileChunk) : Prop :=
  ∀ (i : Nat) (bytes : Bytes), slot.chunks[i]? = some (some bytes) →
    ∃ chunk ∈ chunks, chunk.Fills k slot i bytes

namespace PendingFrameTile

theorem new_filledBy (chunk : FrameTileChunk) (k : UInt64 × UInt64) (chunks : List FrameTileChunk) :
    (new chunk).FilledBy k chunks := by
  intro i bytes h
  rw [new, List.getElem?_replicate] at h
  split at h <;> cases h

theorem FilledBy.concat {slot : PendingFrameTile} {k : UInt64 × UInt64}
    {chunks : List FrameTileChunk} (h : slot.FilledBy k chunks) (chunk : FrameTileChunk) :
    slot.FilledBy k (chunks ++ [chunk]) := by
  intro i bytes hi
  obtain ⟨c, hc, hfill⟩ := h i bytes hi
  exact ⟨c, List.mem_append_left _ hc, hfill⟩

theorem FilledBy.store {slot : PendingFrameTile} {chunk : FrameTileChunk}
    {chunks : List FrameTileChunk} (h : slot.FilledBy chunk.key chunks) (hm : slot.Matches chunk) :
    (slot.store chunk).FilledBy chunk.key (chunks ++ [chunk]) := by
  obtain ⟨htotal, hheader, hcount⟩ := hm
  intro i bytes hi
  simp only [PendingFrameTile.store, List.getElem?_set] at hi
  split at hi
  · rename_i hidx
    split at hi
    · have hbytes : chunk.bytes = bytes := by simpa using hi
      refine ⟨chunk, by simp, rfl, hheader.symm, ?_, htotal.symm, hidx, hbytes⟩
      simp [PendingFrameTile.store, hcount]
    · cases hi
  · obtain ⟨c, hc, hkey, hhdr, hcnt, htot, hind, hby⟩ := h i bytes hi
    refine ⟨c, List.mem_append_left _ hc, hkey, hhdr, ?_, htot, hind, hby⟩
    simpa [PendingFrameTile.store] using hcnt

theorem FilledBy.put {slot slot' : PendingFrameTile} {chunk : FrameTileChunk}
    {chunks : List FrameTileChunk} (h : slot.FilledBy chunk.key chunks)
    (hput : (slot.put chunk).1 = some slot') : slot'.FilledBy chunk.key (chunks ++ [chunk]) := by
  obtain hp | ⟨-, hp⟩ | ⟨hm, -, -, hp⟩ := slot.put_cases chunk
  · rw [hp] at hput; cases hput
  · rw [hp] at hput; cases hput; exact h.concat chunk
  · rw [hp] at hput
    split at hput
    · cases hput; exact h.store hm
    · cases hput

/-- A returned tile is the concatenation, by index, of chunks that filled the slot. -/
theorem FilledBy.tile {slot : PendingFrameTile} {chunk : FrameTileChunk} {tile : FrameTile}
    {chunks : List FrameTileChunk} (h : slot.FilledBy chunk.key chunks)
    (hput : (slot.put chunk).2 = some tile) :
    slot.Matches chunk ∧ ∃ parts : List FrameTileChunk,
      parts.map (·.chunkIndex.toNat) = List.range chunk.chunkCount.toNat ∧
      (∀ p ∈ parts, p ∈ chunks ++ [chunk] ∧ p.key = chunk.key ∧ p.header = chunk.header ∧
        p.chunkCount = chunk.chunkCount ∧ p.totalLen = chunk.totalLen) ∧
      tile = chunk.header.intoTile (parts.map (·.bytes)).flatten ∧
      tile.bytes.length = slot.totalLen := by
  obtain hp | ⟨-, hp⟩ | ⟨hm, -, -, hp⟩ := slot.put_cases chunk
  · rw [hp] at hput; cases hput
  · rw [hp] at hput; cases hput
  rw [hp] at hput
  split at hput
  · cases hput
  obtain ⟨ps, hps, rfl, hlen⟩ := intoTile_eq_some hput
  have hn : ps.length = chunk.chunkCount.toNat := by
    have := congrArg List.length hps
    simp only [PendingFrameTile.store, List.length_set, List.length_map] at this
    rw [← this, hm.2.2]
  -- every cell is full, so each index has a chunk that filled it
  have hpart : ∀ i, i < ps.length →
      ∃ c ∈ chunks ++ [chunk], c.Fills chunk.key (slot.store chunk) i (ps.getD i []) := by
    intro i hi
    refine h.store hm i _ ?_
    rw [hps, List.getElem?_map, List.getD_eq_getElem?_getD, List.getElem?_eq_getElem hi]
    rfl
  have : Nonempty FrameTileChunk := ⟨chunk⟩
  choose! part hmem hfill using hpart
  refine ⟨hm, (List.range ps.length).map part, ?_, ?_, ?_, hlen⟩
  · rw [List.map_map, ← hn]
    refine (List.map_congr_left fun i hi => ?_).trans (List.map_id' _)
    exact (hfill i (List.mem_range.1 hi)).2.2.2.2.1
  · intro p hp
    obtain ⟨i, hi, rfl⟩ := List.mem_map.1 hp
    obtain ⟨hkey, hhdr, hcnt, htot, -, -⟩ := hfill i (List.mem_range.1 hi)
    refine ⟨hmem i (List.mem_range.1 hi), hkey, hhdr.trans hm.2.1, ?_, ?_⟩
    · apply UInt32.toNat_inj.1
      rw [hcnt, ← hm.2.2]
      simp [PendingFrameTile.store]
    · apply UInt32.toNat_inj.1
      rw [htot, ← hm.1]; rfl
  · have hbytes : ((List.range ps.length).map part).map (·.bytes) = ps := by
      apply List.ext_getElem (by simp)
      intro i h1 h2
      have := (hfill i h2).2.2.2.2.2
      simpa [List.getD_eq_getElem?_getD, List.getElem?_eq_getElem h2] using this
    rw [hbytes, ← hm.2.1]
    rfl

end PendingFrameTile

namespace FrameTileDatagramAssembler

/-- Every slot in the map has a lifetime within the history, and was filled in it. -/
def Traced (hist : List FrameTileChunk) (a : FrameTileDatagramAssembler) : Prop :=
  ∀ k slot, a.pending.lookup k = some slot →
    ∃ before since, hist = before ++ since ∧ Lifetime k before since ∧ slot.FilledBy k since

/-- So has the slot the next chunk is put in; if it is new, its lifetime starts with the chunk. -/
theorem Traced.slotFor {hist : List FrameTileChunk} (h : Traced hist (run hist))
    (chunk : FrameTileChunk) :
    ∃ before since, hist = before ++ since ∧ Lifetime chunk.key before since ∧
      ((run hist).slotFor chunk).FilledBy chunk.key since := by
  rw [slotFor_eq]
  cases hl : (run hist).pending.lookup chunk.key with
  | some slot => exact h _ _ hl
  | none =>
    refine ⟨hist, [], (List.append_nil _).symm, .start ?_, ?_⟩
    · exact Finmap.lookup_eq_none.1 hl
    · exact PendingFrameTile.new_filledBy chunk _ _

theorem Traced.push {hist : List FrameTileChunk} (h : Traced hist (run hist))
    (chunk : FrameTileChunk) : Traced (hist ++ [chunk]) ((run hist).push chunk).1 := by
  intro k slot hk
  have hmem : k ∈ (run (hist ++ [chunk])).pending := by
    rw [run, Mealy.state_concat]
    exact Finmap.mem_of_lookup_eq_some hk
  -- enough: a lifetime in `hist` and a slot that the chunk may have filled further
  suffices ∃ before since, hist = before ++ since ∧ Lifetime k before since ∧
      slot.FilledBy k (since ++ [chunk]) by
    obtain ⟨before, since, rfl, hlife, hfill⟩ := this
    exact ⟨before, since ++ [chunk], by simp, hlife.concat hmem, hfill⟩
  have hold : (run hist).pending.lookup k = some slot →
      ∃ before since, hist = before ++ since ∧ Lifetime k before since ∧
        slot.FilledBy k (since ++ [chunk]) := by
    intro hl
    obtain ⟨before, since, heq, hlife, hfill⟩ := h k slot hl
    exact ⟨before, since, heq, hlife, hfill.concat chunk⟩
  by_cases hacc : chunk.Acceptable
  · rw [lookup_push hacc] at hk
    split at hk
    · rename_i hkey
      subst hkey
      obtain ⟨before, since, heq, hlife, hfill⟩ := h.slotFor chunk
      exact ⟨before, since, heq, hlife, hfill.put hk⟩
    · exact hold (lookup_of_makeRoom hk)
  · rw [push_of_not_acceptable hacc] at hk
    exact hold hk

theorem traced_run (hist : List FrameTileChunk) : Traced hist (run hist) := by
  refine Mealy.state_history (I := Traced) ?_ (fun as c h => h.push c) hist
  intro k slot h
  rw [lookup_default] at h
  cases h

theorem safe_run (hist : List FrameTileChunk) : (run hist).Safe :=
  Mealy.state_invariant safe_default (fun _ chunk h => h.push chunk) hist

/-- A push that returns a tile: where the slot's lifetime is in the history, and the chunks the
tile was put together from. -/
theorem push_tile_parts {hist : List FrameTileChunk} {chunk : FrameTileChunk} {tile : FrameTile}
    (h : ((run hist).push chunk).2 = some tile) :
    ∃ before since, hist = before ++ since ∧ Lifetime chunk.key before since ∧
      ((run hist).slotFor chunk).Matches chunk ∧
      ∃ parts : List FrameTileChunk,
        parts.map (·.chunkIndex.toNat) = List.range chunk.chunkCount.toNat ∧
        (∀ p ∈ parts, p ∈ since ++ [chunk] ∧ p.key = chunk.key ∧ p.header = chunk.header ∧
          p.chunkCount = chunk.chunkCount ∧ p.totalLen = chunk.totalLen) ∧
        tile = chunk.header.intoTile (parts.map (·.bytes)).flatten ∧
        tile.bytes.length = ((run hist).slotFor chunk).totalLen := by
  have hacc : chunk.Acceptable := by
    by_contra hacc
    rw [push_of_not_acceptable hacc] at h
    cases h
  rw [push_tile hacc] at h
  obtain ⟨before, since, heq, hlife, hfill⟩ := (traced_run hist).slotFor chunk
  exact ⟨before, since, heq, hlife, hfill.tile h⟩

/-- **The reassembler against any peer.** After any sequence of chunks the map has at most 32
slots, each within its bounds; and when the next push returns a tile, its bytes are as many as the
slot announced, the concatenation by index of chunks pushed since the slot was created, which all
carry the key, header, chunk count and total length of the last one. -/
theorem assembler_safe (hist : List FrameTileChunk) :
    (run hist).Safe ∧
    ∀ (chunk : FrameTileChunk) (tile : FrameTile), ((run hist).push chunk).2 = some tile →
      ∃ before since, hist = before ++ since ∧ Lifetime chunk.key before since ∧
        ((run hist).slotFor chunk).Matches chunk ∧
        ∃ parts : List FrameTileChunk,
          parts.map (·.chunkIndex.toNat) = List.range chunk.chunkCount.toNat ∧
          (∀ p ∈ parts, p ∈ since ++ [chunk] ∧ p.key = chunk.key ∧ p.header = chunk.header ∧
            p.chunkCount = chunk.chunkCount ∧ p.totalLen = chunk.totalLen) ∧
          tile = chunk.header.intoTile (parts.map (·.bytes)).flatten ∧
          tile.bytes.length = ((run hist).slotFor chunk).totalLen :=
  ⟨safe_run hist, fun _ _ h => push_tile_parts h⟩

/-- A chunk of a three-byte tile sent in two pieces. -/
def sampleChunk (chunkIndex : UInt32) (bytes : Bytes) : FrameTileChunk :=
  { channelId := 7, frameSeq := 1, chunkIndex, chunkCount := 2, totalLen := 3,
    header := { id := 7, x := 0, y := 0, w := 1, h := 1, stride := 4, encoding := .zstdRgba }, bytes }

theorem assembler_safe_second_chunk_first :
    ((run [sampleChunk 1 [3]]).push (sampleChunk 0 [1, 2])).2 =
        some ((sampleChunk 0 []).header.intoTile [1, 2, 3]) ∧
      ∃ before since, [sampleChunk 1 [3]] = before ++ since ∧ Lifetime (7, 1) before since ∧
        ∃ parts : List FrameTileChunk, parts.map (·.chunkIndex.toNat) = [0, 1] ∧
          ∀ p ∈ parts, p ∈ since ++ [sampleChunk 0 [1, 2]] := by
  have htile : ((run [sampleChunk 1 [3]]).push (sampleChunk 0 [1, 2])).2 =
      some ((sampleChunk 0 []).header.intoTile [1, 2, 3]) := by decide
  obtain ⟨before, since, heq, hlife, -, parts, hidx, hparts, -⟩ :=
    (assembler_safe [sampleChunk 1 [3]]).2 _ _ htile
  exact ⟨htile, before, since, heq, hlife, parts, hidx, fun p hp => (hparts p hp).1⟩

end FrameTileDatagramAssembler
end VBox
