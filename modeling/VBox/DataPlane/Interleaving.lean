import VBox.DataPlane.Reassembly

/-!
# DataPlane.Interleaving

Many frames at once: the datagrams of a `Transmission` arrive mixed with each other.

`Tracks` is the invariant: for every frame the map holds the slot of the datagrams that have arrived
of it, and it holds nothing else. It lasts as long as the map is not cleared.

* `reassembly_exact`: interleaved frames come out once each, at their last missing datagram.
* `emitted_in_order`: when the frames of one channel come out in the order they were sent.
-/

namespace VBox

open ByteCodec Slices FrameTileDatagramAssembler

/-- Frames that were split and sent under different keys. -/
structure Transmission (pc : Postcard DataPlaneDatagram) where
  frames : List SentFrame
  split : ∀ f ∈ frames, f.split pc = .ok (f.datagrams pc)
  keys : (frames.map SentFrame.key).Nodup

namespace Transmission

variable {pc : Postcard DataPlaneDatagram} {t : Transmission pc} {f g : SentFrame}

theorem eq_of_key (hf : f ∈ t.frames) (hg : g ∈ t.frames) (h : f.key = g.key) : f = g :=
  List.inj_on_of_nodup_map t.keys hf hg h

end Transmission

/-- A datagram of the frame has arrived. -/
def SentFrame.Started (pc : Postcard DataPlaneDatagram) (f : SentFrame) (ds : List Bytes) : Prop :=
  ∃ d ∈ f.datagrams pc, d ∈ ds

instance (pc : Postcard DataPlaneDatagram) (f : SentFrame) (ds : List Bytes) :
    Decidable (f.Started pc ds) :=
  inferInstanceAs (Decidable (∃ d ∈ f.datagrams pc, d ∈ ds))

/-- Datagrams of the frames in any order, none of them after its frame is complete. -/
structure Interleaving {pc : Postcard DataPlaneDatagram} (t : Transmission pc)
    (arrivals : List Bytes) : Prop where
  sent : ∀ d ∈ arrivals, ∃ f ∈ t.frames, d ∈ f.datagrams pc
  unfinished : ∀ before d after, arrivals = before ++ d :: after →
    ∀ f ∈ t.frames, d ∈ f.datagrams pc → ¬ f.Complete pc before

/-- At each push, at most 32 frames are started and not complete, with the frame of the datagram
that is pushed among them. -/
def HasRoom {pc : Postcard DataPlaneDatagram} (t : Transmission pc) (arrivals : List Bytes) : Prop :=
  ∀ before d after, arrivals = before ++ d :: after →
    (t.frames.filter fun f => f.Started pc (before ++ [d]) ∧ ¬ f.Complete pc before).length ≤
      maxPendingFrames

theorem forall_split_iff {α : Type} {P : List α → α → Prop} {l : List α} :
    (∀ before x after, l = before ++ x :: after → P before x) ↔
      ∀ i : Fin l.length, P (l.take i) l[i] := by
  constructor
  · intro h i
    exact h _ _ (l.drop (i + 1)) (by simp)
  · rintro h before x after rfl
    simpa using h ⟨before.length, by simp⟩

section Prefix

variable {pc : Postcard DataPlaneDatagram} {t : Transmission pc} {ds : List Bytes} {d : Bytes}

theorem Interleaving.init (h : Interleaving t (ds ++ [d])) : Interleaving t ds := by
  refine ⟨fun x hx => h.sent x (List.mem_append_left _ hx), fun before x after heq => ?_⟩
  exact h.unfinished before x (after ++ [d]) (by simp [heq])

theorem HasRoom.init (h : HasRoom t (ds ++ [d])) : HasRoom t ds := by
  intro before x after heq
  exact h before x (after ++ [d]) (by simp [heq])

end Prefix

/-! ## The map follows the frames -/

structure Tracks {pc : Postcard DataPlaneDatagram} (t : Transmission pc) (ds : List Bytes)
    (a : FrameTileDatagramAssembler) : Prop where
  slot : ∀ f ∈ t.frames, a.pending.lookup f.key = f.pendingSlot (f.seen pc ds)
  other : ∀ k, k ∉ t.frames.map SentFrame.key → a.pending.lookup k = none

namespace SentFrame

variable {pc : Postcard DataPlaneDatagram} {f g : SentFrame} {ds : List Bytes}

theorem started_of_seen (h : f.seen pc ds ≠ ∅) : f.Started pc ds := by
  obtain ⟨i, hi⟩ := Finset.nonempty_iff_ne_empty.2 h
  obtain ⟨hlt, hmem⟩ := Finset.mem_filter.1 hi
  exact ⟨_, mem_datagrams.2 ⟨i, Finset.mem_range.1 hlt, rfl⟩, hmem⟩

theorem Started.append {d : Bytes} (h : f.Started pc ds) : f.Started pc (ds ++ [d]) := by
  obtain ⟨x, hx, hmem⟩ := h
  exact ⟨x, hx, List.mem_append_left _ hmem⟩

/-- The frames of `Started` and not `Complete` are those with a slot. -/
theorem pendingSlot_isSome (h : (f.pendingSlot (f.seen pc ds)).isSome) :
    f.Started pc ds ∧ ¬ f.Complete pc ds := by
  unfold pendingSlot at h
  split at h
  · cases h
  · rename_i hne
    rw [not_or, range_subset_seen] at hne
    exact ⟨started_of_seen hne.1, hne.2⟩

theorem complete_concat_other {d : Bytes} (hd : d ∈ g.datagrams pc) (hne : f.key ≠ g.key) :
    f.Complete pc (ds ++ [d]) ↔ f.Complete pc ds := by
  obtain ⟨j, -, rfl⟩ := mem_datagrams.1 hd
  rw [← range_subset_seen, ← range_subset_seen, seen_concat_other hne]

end SentFrame

section Step

variable {pc : Postcard DataPlaneDatagram} {t : Transmission pc} {ds : List Bytes}
  {a : FrameTileDatagramAssembler} {f : SentFrame} {d : Bytes}

/-- While there is room, the map is not cleared for a frame of the transmission. -/
theorem Tracks.makeRoom_eq (h : Tracks t ds a) (hf : f ∈ t.frames) (hd : d ∈ f.datagrams pc)
    (hinc : ¬ f.Complete pc ds)
    (hroom : (t.frames.filter fun g => g.Started pc (ds ++ [d]) ∧ ¬ g.Complete pc ds).length ≤
      maxPendingFrames) :
    a.makeRoom f.key = a.pending := by
  unfold makeRoom
  refine if_neg fun ⟨hkey, hfull⟩ => ?_
  -- the frame and all frames with a slot are started and not complete
  have hsub : insert f.key a.pending.keys ⊆
      ((t.frames.filter fun g => g.Started pc (ds ++ [d]) ∧ ¬ g.Complete pc ds).map
        SentFrame.key).toFinset := by
    intro k hk
    rw [List.mem_toFinset, List.mem_map]
    obtain rfl | hk := Finset.mem_insert.1 hk
    · refine ⟨f, List.mem_filter.2 ⟨hf, ?_⟩, rfl⟩
      simpa using ⟨⟨d, hd, by simp⟩, hinc⟩
    · rw [Finmap.mem_keys, ← Finmap.lookup_isSome] at hk
      by_cases hin : k ∈ t.frames.map SentFrame.key
      · obtain ⟨g, hg, rfl⟩ := List.mem_map.1 hin
        rw [h.slot g hg] at hk
        obtain ⟨hstarted, hopen⟩ := SentFrame.pendingSlot_isSome hk
        refine ⟨g, List.mem_filter.2 ⟨hg, ?_⟩, rfl⟩
        simpa using ⟨hstarted.append, hopen⟩
      · rw [h.other k hin] at hk
        cases hk
  have hcard := (Finset.card_le_card hsub).trans (List.toFinset_card_le _)
  rw [Finset.card_insert_of_notMem (fun hmem => hkey (Finmap.mem_keys.1 hmem)), List.length_map]
    at hcard
  omega

/-- One datagram: its frame moves on, and returns the tile when it is complete; the other frames
stay where they are. -/
theorem Tracks.receive (h : Tracks t ds a) (hf : f ∈ t.frames) (hfit : f.Fits)
    (hd : d ∈ f.datagrams pc) (hinc : ¬ f.Complete pc ds)
    (hroom : (t.frames.filter fun g => g.Started pc (ds ++ [d]) ∧ ¬ g.Complete pc ds).length ≤
      maxPendingFrames) :
    (VBox.receive pc a d).2 = (if f.Complete pc (ds ++ [d]) then some f.tile else none) ∧
      Tracks t (ds ++ [d]) (VBox.receive pc a d).1 := by
  have hkeep := h.makeRoom_eq hf hd hinc hroom
  obtain ⟨i, hi, rfl⟩ := SentFrame.mem_datagrams.1 hd
  obtain ⟨htile, hslot⟩ := hfit.receive_datagram hi hinc (h.slot f hf)
  have hother : ∀ k, k ≠ f.key →
      (VBox.receive pc a (f.datagram pc i)).1.pending.lookup k = a.pending.lookup k := by
    intro k hk
    rw [SentFrame.receive_datagram, lookup_push (hfit.acceptable hi), SentFrame.chunk_key,
      if_neg hk, hkeep]
  refine ⟨htile, fun g hg => ?_, fun k hk => ?_⟩
  · by_cases hkey : g.key = f.key
    · rw [Transmission.eq_of_key hg hf hkey]
      exact hslot
    · rw [hother _ hkey, h.slot g hg, SentFrame.seen_concat_other hkey]
  · rw [hother k fun heq => hk (heq ▸ List.mem_map_of_mem hf)]
    exact h.other k hk

end Step

/-! ## Whole runs -/

theorem filter_perm_cons {α : Type} {l : List α} {p q : α → Bool} {x : α} (hl : l.Nodup) (hx : x ∈ l)
    (hp : p x = false) (hq : q x = true) (hpq : ∀ y ∈ l, y ≠ x → q y = p y) :
    (l.filter q).Perm (x :: l.filter p) := by
  obtain ⟨l₁, l₂, rfl⟩ := List.append_of_mem hx
  have hsame : ∀ y ∈ l₁ ++ l₂, q y = p y := by
    intro y hy
    refine hpq y (by simp only [List.mem_append, List.mem_cons] at hy ⊢; tauto) ?_
    rintro rfl
    exact (List.nodup_middle.1 hl).notMem hy
  have h₁ : l₁.filter q = l₁.filter p :=
    List.filter_congr fun y hy => hsame y (List.mem_append_left _ hy)
  have h₂ : l₂.filter q = l₂.filter p :=
    List.filter_congr fun y hy => hsame y (List.mem_append_right _ hy)
  rw [List.filter_append, List.filter_append, List.filter_cons_of_pos hq,
    List.filter_cons_of_neg (by simp [hp]), h₁, h₂]
  exact List.perm_middle

section Run

variable {pc : Postcard DataPlaneDatagram} {t : Transmission pc} {ds : List Bytes}

theorem tracks_received (hfit : ∀ f ∈ t.frames, f.Fits) (hds : Interleaving t ds)
    (hroom : HasRoom t ds) : Tracks t ds (received pc ds) := by
  induction ds using List.reverseRecOn with
  | nil => exact ⟨fun f _ => by simp, fun k _ => by simp⟩
  | append_singleton ds d ih =>
    obtain ⟨f, hf, hd⟩ := hds.sent d (by simp)
    unfold received at ih ⊢
    rw [Mealy.state_concat]
    exact ((ih hds.init hroom.init).receive hf (hfit f hf) hd (hds.unfinished ds d [] rfl f hf hd)
      (hroom ds d [] rfl)).2

/-- Which tile a datagram of the run returns. -/
theorem receive_received {before after : List Bytes} {d : Bytes} (hfit : ∀ f ∈ t.frames, f.Fits)
    (hds : Interleaving t (before ++ d :: after)) (hroom : HasRoom t (before ++ d :: after))
    {f : SentFrame} (hf : f ∈ t.frames) (hd : d ∈ f.datagrams pc) :
    (receive pc (received pc before) d).2 =
      if f.Complete pc (before ++ [d]) then some f.tile else none := by
  have htracks : Tracks t before (received pc before) := by
    refine tracks_received hfit ⟨fun x hx => hds.sent x (List.mem_append_left _ hx), ?_⟩ ?_
    · intro b x e heq
      exact hds.unfinished b x (e ++ d :: after) (by simp [heq])
    · intro b x e heq
      exact hroom b x (e ++ d :: after) (by simp [heq])
  exact (htracks.receive hf (hfit f hf) hd (hds.unfinished before d after rfl f hf hd)
    (hroom before d after rfl)).1

/-- The tiles returned so far are those of the frames that are complete. -/
theorem emitted_perm (hfit : ∀ f ∈ t.frames, f.Fits) (hds : Interleaving t ds)
    (hroom : HasRoom t ds) :
    (emitted pc ds).Perm ((t.frames.filter fun f => f.Complete pc ds).map (·.tile)) := by
  induction ds using List.reverseRecOn with
  | nil =>
    have hnone : (t.frames.filter fun f => f.Complete pc []) = [] := by
      refine List.filter_eq_nil_iff.2 fun f _ hc => ?_
      have := of_decide_eq_true hc (f.datagram pc 0)
        (SentFrame.mem_datagrams.2 ⟨0, f.pieces_length_pos, rfl⟩)
      cases this
    rw [hnone]
    exact .refl _
  | append_singleton ds d ih =>
    obtain ⟨f, hf, hd⟩ := hds.sent d (by simp)
    have hinc := hds.unfinished ds d [] rfl f hf hd
    have htile := receive_received hfit hds hroom hf hd
    have hothers : ∀ g ∈ t.frames, g ≠ f →
        decide (g.Complete pc (ds ++ [d])) = decide (g.Complete pc ds) := by
      intro g hg hne
      have hkey : g.key ≠ f.key := fun h => hne (Transmission.eq_of_key hg hf h)
      exact decide_eq_decide.2 (SentFrame.complete_concat_other hd hkey)
    have hih := ih hds.init hroom.init
    have hcat : emitted pc (ds ++ [d]) =
        emitted pc ds ++ [(receive pc (received pc ds) d).2].reduceOption := by
      rw [emitted, Mealy.outputs_concat, List.reduceOption_append]
      rfl
    rw [hcat, htile]
    by_cases hc : f.Complete pc (ds ++ [d])
    · have hperm := filter_perm_cons (List.Nodup.of_map _ t.keys) hf (by simpa using hinc)
        (by simpa using hc) hothers
      refine List.Perm.trans ?_ (hperm.map (·.tile)).symm
      rw [if_pos hc]
      exact (List.perm_append_comm).trans (hih.cons _)
    · have hsame : (t.frames.filter fun g => g.Complete pc (ds ++ [d])) =
          t.frames.filter fun g => g.Complete pc ds := by
        refine List.filter_congr fun g hg => ?_
        by_cases hgf : g = f
        · subst hgf
          simp [hc, hinc]
        · exact hothers g hg hgf
      rw [if_neg hc, hsame, List.reduceOption_singleton, Option.toList_none, List.append_nil]
      exact hih

end Run

/-- **Interleaved reassembly.** Frames under different keys, within the receiver's caps, whose
datagrams all arrive, mixed in any order, none after its frame is complete, and with at most 32
frames unfinished at any push: each push returns the tile of its datagram's frame if it completes
the frame and nothing otherwise, and over the run every frame comes out once. -/
theorem reassembly_exact (pc : Postcard DataPlaneDatagram) (t : Transmission pc)
    {arrivals : List Bytes}
    (hcount : ∀ f ∈ t.frames, (f.datagrams pc).length ≤ maxChunksPerFrame.toNat)
    (hlen : ∀ f ∈ t.frames, f.tile.bytes.length ≤ maxFrameBytes.toNat)
    (hds : Interleaving t arrivals) (hall : ∀ f ∈ t.frames, f.Complete pc arrivals)
    (hroom : HasRoom t arrivals) :
    (∀ before d after, arrivals = before ++ d :: after → ∀ f ∈ t.frames, d ∈ f.datagrams pc →
      (receive pc (received pc before) d).2 =
        if f.Complete pc (before ++ [d]) then some f.tile else none) ∧
    (emitted pc arrivals).Perm (t.frames.map (·.tile)) := by
  have hfit : ∀ f ∈ t.frames, f.Fits := by
    intro f hf
    exact ⟨by simpa [SentFrame.datagrams] using hcount f hf, hlen f hf⟩
  constructor
  · rintro before d after rfl f hf hd
    exact receive_received hfit hds hroom hf hd
  · have h := emitted_perm hfit hds hroom
    rwa [List.filter_eq_self.2 fun f hf => decide_eq_true (hall f hf)] at h

/-- Two frames in two pieces each, the first piece of the first one twice. -/
def pairOfFrames : Transmission datagramWire :=
  { frames := [sampleFrame 7 1 257, sampleFrame 8 2 257]
    split := by
      intro f hf
      simp only [List.mem_cons, List.not_mem_nil, or_false] at hf
      obtain rfl | rfl := hf
      · exact sampleFrame_split 7 1 (by decide)
      · exact sampleFrame_split 8 2 (by decide)
    keys := by decide }

theorem reassembly_exact_pair :
    (emitted datagramWire
      [(sampleFrame 7 1 257).datagram datagramWire 0, (sampleFrame 8 2 257).datagram datagramWire 1,
        (sampleFrame 7 1 257).datagram datagramWire 0, (sampleFrame 8 2 257).datagram datagramWire 0,
        (sampleFrame 7 1 257).datagram datagramWire 1]).Perm
      [(sampleFrame 7 1 257).tile, (sampleFrame 8 2 257).tile] := by
  refine (reassembly_exact datagramWire pairOfFrames (by decide +kernel) (by decide +kernel)
    ⟨by decide +kernel, forall_split_iff.2 (by decide +kernel)⟩ (by decide +kernel) ?_).2
  intro before d after _
  exact (List.length_filter_le _ _).trans (by decide)

/-- 32 frames in two pieces and one in one piece. -/
def crowdFrame (i : Nat) : SentFrame :=
  sampleFrame (UInt64.ofNat i) (UInt64.ofNat (i + 1)) (if i < 32 then 257 else 0)

def crowd : Transmission datagramWire :=
  { frames := (List.range 33).map crowdFrame
    split := by
      intro f hf
      obtain ⟨i, -, rfl⟩ := List.mem_map.1 hf
      exact sampleFrame_split _ _ (by split <;> decide)
    keys := by decide +kernel }

/-- The first pieces, the frame in one piece, the second pieces. -/
def crowdOrder : List (Nat × Nat) :=
  (List.range 33).map (·, 0) ++ (List.range 32).map (·, 1)

def crowdArrivals : List Bytes :=
  crowdOrder.map fun p => (crowdFrame p.1).datagram datagramWire p.2

theorem crowd_emitted : (emitted datagramWire crowdArrivals).length = 1 := by
  have h : Mealy.outputs (receive datagramWire) default crowdArrivals =
      Mealy.outputs push default (crowdOrder.map fun p => (crowdFrame p.1).chunk p.2) := by
    rw [crowdArrivals, Mealy.outputs_map fun a p => SentFrame.receive_datagram a,
      Mealy.outputs_map fun _ _ => rfl]
  rw [emitted, h]
  decide +kernel

theorem crowdFrame_pieces {i : Nat} :
    (crowdFrame i).pieces.length = if i < 32 then 2 else 1 := by
  have hlen : (crowdFrame i).tile.bytes.length = if i < 32 then 257 else 0 := List.length_replicate
  have hlim : payloadLimit (crowdFrame i).maxDatagramSize = 256 := by
    show payloadLimit 512 = 256
    decide
  rw [SentFrame.pieces_length, hlen, hlim]
  split <;> decide

theorem mem_crowd {f : SentFrame} (hf : f ∈ crowd.frames) : ∃ i, i < 33 ∧ crowdFrame i = f := by
  simpa [crowd] using hf

theorem mem_crowdOrder {i j : Nat} :
    (i, j) ∈ crowdOrder ↔ i < 33 ∧ j < if i < 32 then 2 else 1 := by
  simp only [crowdOrder, List.mem_append, List.mem_map, List.mem_range, Prod.mk.injEq]
  constructor
  · rintro (⟨k, hk, rfl, rfl⟩ | ⟨k, hk, rfl, rfl⟩)
    · exact ⟨hk, by split <;> decide⟩
    · exact ⟨by omega, by simp [hk]⟩
  · rintro ⟨hi, hj⟩
    obtain rfl | hj0 := Nat.eq_zero_or_pos j
    · exact .inl ⟨i, hi, rfl, rfl⟩
    · split at hj
      · exact .inr ⟨i, ‹_›, rfl, by omega⟩
      · omega

theorem crowdArrivals_nodup : crowdArrivals.Nodup := by
  refine List.Nodup.map_on ?_ (by decide +kernel)
  have hsmall : ∀ p ∈ crowdOrder, p.1 < 33 ∧ p.2 < 2 := by
    intro p hp
    have := mem_crowdOrder.1 hp
    split at this <;> omega
  rintro ⟨i, j⟩ hp ⟨i', j'⟩ hq heq
  have hchunk := SentFrame.chunk_eq_of_datagram_eq heq
  have hi := congrArg (·.channelId.toNat) hchunk
  have hj := congrArg (·.chunkIndex.toNat) hchunk
  have hp := hsmall _ hp
  have hq := hsmall _ hq
  simp only [SentFrame.chunk, crowdFrame, sampleFrame, UInt64.toNat_ofNat', UInt32.toNat_ofNat']
    at hi hj hp hq
  exact Prod.ext (by dsimp only; omega) (by dsimp only; omega)

theorem crowd_interleaving : Interleaving crowd crowdArrivals := by
  constructor
  · intro d hd
    obtain ⟨p, hp, rfl⟩ := List.mem_map.1 hd
    have hcell := mem_crowdOrder.1 hp
    refine ⟨crowdFrame p.1, List.mem_map_of_mem (List.mem_range.2 hcell.1), ?_⟩
    exact SentFrame.mem_datagrams.2 ⟨p.2, by rw [crowdFrame_pieces]; exact hcell.2, rfl⟩
  · -- no datagram arrives twice, so none arrives after its frame is complete
    intro before d after heq f _ hd hc
    have hnodup := crowdArrivals_nodup
    rw [heq] at hnodup
    exact (List.nodup_append.1 hnodup).2.2 _ (hc d hd) _ List.mem_cons_self rfl

theorem crowd_unfinished_le (before : List Bytes) :
    (crowd.frames.filter fun f =>
      f.Started datagramWire before ∧ ¬ f.Complete datagramWire before).length ≤ maxPendingFrames := by
  -- the frame in one piece is complete as soon as it is started
  have hlast : ¬ ((crowdFrame 32).Started datagramWire before ∧
      ¬ (crowdFrame 32).Complete datagramWire before) := by
    rintro ⟨⟨d, hd, hmem⟩, hc⟩
    refine hc fun d' hd' => ?_
    obtain ⟨j, hj, rfl⟩ := SentFrame.mem_datagrams.1 hd
    obtain ⟨j', hj', rfl⟩ := SentFrame.mem_datagrams.1 hd'
    rw [crowdFrame_pieces] at hj hj'
    obtain rfl : j' = j := by simp at hj hj'; omega
    exact hmem
  have hsplit : crowd.frames = (List.range 32).map crowdFrame ++ [crowdFrame 32] := by
    show (List.range (32 + 1)).map crowdFrame = _
    rw [List.range_succ, List.map_append]
    rfl
  rw [hsplit, List.filter_append, List.filter_cons_of_neg (by simpa using hlast), List.filter_nil,
    List.append_nil]
  exact (List.length_filter_le _ _).trans (by simp [maxPendingFrames])

/-- Between pushes never more than 32 of these frames are started and not complete, yet only one
tile comes out: the frame in one piece arrives when the map is full, and clears it. -/
theorem full_map_cleared_by_one_piece_frame :
    (∀ f ∈ crowd.frames, (f.datagrams datagramWire).length ≤ maxChunksPerFrame.toNat) ∧
    (∀ f ∈ crowd.frames, f.tile.bytes.length ≤ maxFrameBytes.toNat) ∧
    Interleaving crowd crowdArrivals ∧
    (∀ f ∈ crowd.frames, f.Complete datagramWire crowdArrivals) ∧
    (∀ before, before <+: crowdArrivals →
      (crowd.frames.filter fun f =>
        f.Started datagramWire before ∧ ¬ f.Complete datagramWire before).length ≤
          maxPendingFrames) ∧
    ¬ (emitted datagramWire crowdArrivals).Perm (crowd.frames.map (·.tile)) := by
  refine ⟨?_, ?_, crowd_interleaving, ?_, fun before _ => crowd_unfinished_le before, ?_⟩
  · intro f hf
    obtain ⟨i, -, rfl⟩ := mem_crowd hf
    rw [SentFrame.datagrams, List.length_map, List.length_range, crowdFrame_pieces]
    split <;> decide
  · intro f hf
    obtain ⟨i, -, rfl⟩ := mem_crowd hf
    rw [crowdFrame, sampleFrame, List.length_replicate]
    split <;> decide
  · intro f hf d hd
    obtain ⟨i, hi, rfl⟩ := mem_crowd hf
    obtain ⟨j, hj, rfl⟩ := SentFrame.mem_datagrams.1 hd
    rw [crowdFrame_pieces] at hj
    exact List.mem_map_of_mem (f := fun p : Nat × Nat => (crowdFrame p.1).datagram datagramWire p.2)
      (a := (i, j)) (mem_crowdOrder.2 ⟨hi, hj⟩)
  · intro h
    have := h.length_eq
    rw [crowd_emitted] at this
    simp [crowd] at this

/-! ## The order of emission -/

/-- The sequence number a datagram returned a tile of the channel under, if it did. -/
def emittedSeq (pc : Postcard DataPlaneDatagram) (channelId : UInt64) (datagram : Bytes)
    (tile : Option FrameTile) : Option UInt64 :=
  match decodeDatagram pc datagram, tile with
  | .ok (.frameTileChunk chunk), some _ =>
    if chunk.channelId = channelId then some chunk.frameSeq else none
  | _, _ => none

/-- The sequence numbers under which tiles of a channel were returned, in order. -/
def emittedSeqs (pc : Postcard DataPlaneDatagram) (channelId : UInt64) (ds : List Bytes) :
    List UInt64 :=
  (List.zipWith (emittedSeq pc channelId) ds
    (Mealy.outputs (receive pc) default ds)).reduceOption

section Order

variable {pc : Postcard DataPlaneDatagram} {t : Transmission pc} {ds : List Bytes} {d : Bytes}

theorem emittedSeqs_concat (channelId : UInt64) :
    emittedSeqs pc channelId (ds ++ [d]) = emittedSeqs pc channelId ds ++
      (emittedSeq pc channelId d (receive pc (received pc ds) d).2).toList := by
  rw [emittedSeqs, Mealy.outputs_concat, List.zipWith_append (Mealy.outputs_length _ _).symm,
    List.reduceOption_append, ← emittedSeqs]
  rfl

theorem emittedSeq_eq_some {channelId seq : UInt64} {f : SentFrame} (hd : d ∈ f.datagrams pc)
    {out : Option FrameTile} (h : emittedSeq pc channelId d out = some seq) :
    f.channelId = channelId ∧ f.frameSeq = seq ∧ ∃ tile, out = some tile := by
  obtain ⟨i, -, rfl⟩ := SentFrame.mem_datagrams.1 hd
  unfold emittedSeq at h
  rw [SentFrame.decodeDatagram_datagram] at h
  cases out with
  | none => cases h
  | some tile =>
    dsimp only at h
    split at h
    · rename_i hch
      exact ⟨hch, Option.some.inj h, tile, rfl⟩
    · cases h

/-- A datagram that returns a tile completes its frame: every chunk the tile was put together from
is a datagram of the same key, so of the same frame. -/
theorem complete_of_receive (hsent : ∀ x ∈ ds ++ [d], ∃ g ∈ t.frames, x ∈ g.datagrams pc)
    {f : SentFrame} (hf : f ∈ t.frames) (hd : d ∈ f.datagrams pc) {tile : FrameTile}
    (h : (receive pc (received pc ds) d).2 = some tile) : f.Complete pc (ds ++ [d]) := by
  obtain ⟨-, -, hlt⟩ := SentFrame.split_ok (t.split f hf)
  obtain ⟨i, -, rfl⟩ := SentFrame.mem_datagrams.1 hd
  rw [SentFrame.receive_datagram, received_eq_run] at h
  obtain ⟨before, since, heq, -, -, parts, hidx, hparts, -⟩ := push_tile_parts h
  have hcount : (f.chunk i).chunkCount.toNat = f.pieces.length := by
    rw [SentFrame.chunk, UInt32.toNat_ofNat', Nat.mod_eq_of_lt hlt]
  intro x hx
  obtain ⟨j, hj, rfl⟩ := SentFrame.mem_datagrams.1 hx
  obtain ⟨p, hp, hpj⟩ : ∃ p ∈ parts, p.chunkIndex.toNat = j := by
    have : j ∈ parts.map (·.chunkIndex.toNat) := by
      rw [hidx, hcount]
      exact List.mem_range.2 hj
    simpa using this
  obtain ⟨hmem, hkey, -⟩ := hparts p hp
  -- the datagram the part was decoded from
  obtain ⟨y, hy, hdec⟩ : ∃ y ∈ ds ++ [f.datagram pc i],
      decodeDatagram pc y = .ok (.frameTileChunk p) := by
    obtain hmem | hmem := List.mem_append.1 hmem
    · have : p ∈ decoded pc ds := by
        rw [heq]
        exact List.mem_append_right _ hmem
      obtain ⟨y, hy, hdec⟩ := List.mem_filterMap.1 this
      refine ⟨y, List.mem_append_left _ hy, ?_⟩
      split at hdec
      · rename_i hd; cases hdec; exact hd
      · cases hdec
    · rw [List.mem_singleton.1 hmem]
      exact ⟨_, by simp, SentFrame.decodeDatagram_datagram⟩
  obtain ⟨g, hg, hyg⟩ := hsent y hy
  obtain ⟨k, hk, rfl⟩ := SentFrame.mem_datagrams.1 hyg
  rw [SentFrame.decodeDatagram_datagram] at hdec
  obtain rfl : g.chunk k = p := by simpa using hdec
  obtain rfl : g = f := Transmission.eq_of_key hg hf hkey
  rw [SentFrame.chunkIndex_toNat (by omega)] at hpj
  rwa [← hpj]

theorem complete_of_mem_emittedSeqs {channelId seq : UInt64}
    (hsent : ∀ x ∈ ds, ∃ g ∈ t.frames, x ∈ g.datagrams pc)
    (h : seq ∈ emittedSeqs pc channelId ds) :
    ∃ f ∈ t.frames, f.channelId = channelId ∧ f.frameSeq = seq ∧ f.Complete pc ds := by
  induction ds using List.reverseRecOn with
  | nil => cases h
  | append_singleton ds d ih =>
    rw [emittedSeqs_concat] at h
    obtain h | h := List.mem_append.1 h
    · obtain ⟨f, hf, hch, hseq, hc⟩ := ih (fun x hx => hsent x (List.mem_append_left _ hx)) h
      exact ⟨f, hf, hch, hseq, fun x hx => List.mem_append_left _ (hc x hx)⟩
    · obtain ⟨f, hf, hd⟩ := hsent d (by simp)
      obtain ⟨hch, hseq, tile, htile⟩ := emittedSeq_eq_some hd (Option.mem_toList.1 h)
      exact ⟨f, hf, hch, hseq, complete_of_receive hsent hf hd htile⟩

end Order

/-- **Frames of a channel in order.** If no datagram leaves its frame complete when a newer frame of
the same channel already was, then the tiles of each channel are returned in the order of their
sequence numbers, whatever arrives, is lost or is repeated. -/
theorem emitted_in_order (pc : Postcard DataPlaneDatagram) (t : Transmission pc)
    {arrivals : List Bytes} (hsent : ∀ d ∈ arrivals, ∃ f ∈ t.frames, d ∈ f.datagrams pc)
    (hlate : ∀ before d after, arrivals = before ++ d :: after →
      ∀ f ∈ t.frames, d ∈ f.datagrams pc → f.Complete pc (before ++ [d]) →
        ∀ g ∈ t.frames, g.channelId = f.channelId → f.frameSeq < g.frameSeq →
          ¬ g.Complete pc before) (channelId : UInt64) :
    (emittedSeqs pc channelId arrivals).Pairwise (· ≤ ·) := by
  induction arrivals using List.reverseRecOn with
  | nil => exact .nil
  | append_singleton ds d ih =>
    have hds : ∀ x ∈ ds, ∃ f ∈ t.frames, x ∈ f.datagrams pc :=
      fun x hx => hsent x (List.mem_append_left _ hx)
    have hinit := ih hds fun before x after heq => hlate before x (after ++ [d]) (by simp [heq])
    rw [emittedSeqs_concat, List.pairwise_append]
    refine ⟨hinit, ?_, fun seq hseq seq' hseq' => ?_⟩
    · cases emittedSeq pc channelId d (receive pc (received pc ds) d).2 <;> simp
    · obtain ⟨f, hf, hd⟩ := hsent d (by simp)
      obtain ⟨hch, rfl, tile, htile⟩ := emittedSeq_eq_some hd (Option.mem_toList.1 hseq')
      obtain ⟨g, hg, hgch, rfl, hgc⟩ := complete_of_mem_emittedSeqs hds hseq
      have hc := complete_of_receive hsent hf hd htile
      by_contra hlt
      exact hlate ds d [] rfl f hf hd hc g hg (hgch.trans hch.symm) (UInt64.not_le.1 hlt) hgc

/-- Two frames of one window: an older one in two pieces and a newer one in one. -/
def olderAndNewer : Transmission datagramWire :=
  { frames := [sampleFrame 7 1 257, sampleFrame 7 2 0]
    split := by
      intro f hf
      simp only [List.mem_cons, List.not_mem_nil, or_false] at hf
      obtain rfl | rfl := hf
      · exact sampleFrame_split 7 1 (by decide)
      · exact sampleFrame_split 7 2 (by decide)
    keys := by decide }

theorem emitted_in_order_older_first :
    (emittedSeqs datagramWire 7
      [(sampleFrame 7 1 257).datagram datagramWire 1, (sampleFrame 7 1 257).datagram datagramWire 0,
        (sampleFrame 7 2 0).datagram datagramWire 0]).Pairwise (· ≤ ·) :=
  emitted_in_order datagramWire olderAndNewer (by decide +kernel)
    (forall_split_iff.2 (by decide +kernel)) 7

/-- The newer frame overtakes the second piece of the older one, and both come out: first the tile
with sequence number 2, then the one with sequence number 1. -/
theorem older_frame_emitted_after_newer :
    (olderAndNewer.frames.map (·.frameSeq)).Pairwise (· < ·) ∧
    (∀ d ∈ [(sampleFrame 7 1 257).datagram datagramWire 0, (sampleFrame 7 2 0).datagram datagramWire 0,
        (sampleFrame 7 1 257).datagram datagramWire 1],
      ∃ f ∈ olderAndNewer.frames, d ∈ f.datagrams datagramWire) ∧
    emittedSeqs datagramWire 7
      [(sampleFrame 7 1 257).datagram datagramWire 0, (sampleFrame 7 2 0).datagram datagramWire 0,
        (sampleFrame 7 1 257).datagram datagramWire 1] = [2, 1] ∧
    ¬ (emittedSeqs datagramWire 7
      [(sampleFrame 7 1 257).datagram datagramWire 0, (sampleFrame 7 2 0).datagram datagramWire 0,
        (sampleFrame 7 1 257).datagram datagramWire 1]).Pairwise (· ≤ ·) := by
  decide +kernel

end VBox
