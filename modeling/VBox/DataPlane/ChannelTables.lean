import VBox.DataPlane.Channels

/-!
# DataPlane.ChannelTables

Which stream the writer of `DataPlane.Channels` picks, and what it does to its other tables.

* `Writer.handle_table`: the table of streams changes for the window of the message only.
* `Writer.handle_reliable`: while no write fails, what is about a window goes to the window's stream.
* `Writer.handle_datagrams`: a tile that went into datagrams went there whole, under a new number.
-/

namespace VBox

open ByteCodec ByteStream

namespace Writer

/-! ## Which stream -/

section Tables

variable {pc : Postcard Message} {dpc : Postcard DataPlaneDatagram} {w w' : Writer} {a : Attempt}
  {c : UInt64} {msg : Message} {found : Option Nat} {outcome : Outcome}

theorem writeOnChannel_table (c' : UInt64) (h : w.writeOnChannel pc a c msg = (found, w')) :
    (∀ i, found = some i → w.channelStreams.get? c = some i ∧ w'.channelStreams.get? c = some i) ∧
      (c' ≠ c → w'.channelStreams.get? c' = w.channelStreams.get? c') := by
  unfold writeOnChannel at h
  split at h
  · cases h
    exact ⟨by simp, fun _ => rfl⟩
  · rename_i i hi
    split at h
    · cases h
      exact ⟨by simp, fun _ => rfl⟩
    · split at h
      · cases h
        exact ⟨by simp [hi], fun _ => rfl⟩
      · cases h
        exact ⟨by simp, fun hne => by simp [hne]⟩

theorem openChannel_table (c' : UInt64) (h : w.openChannel pc a c = (found, w')) :
    (found = none → w'.channelStreams = w.channelStreams) ∧
      (c' ≠ c → w'.channelStreams.get? c' = w.channelStreams.get? c') := by
  unfold openChannel at h
  split at h
  · split at h
    · cases h
      exact ⟨by simp, fun hne => by simp [hne]⟩
    · cases h
      exact ⟨fun _ => rfl, fun _ => rfl⟩
  · cases h
    exact ⟨fun _ => rfl, fun _ => rfl⟩

theorem writeChannelFrame_table (c' : UInt64) (h : w.writeChannelFrame pc a c msg = (found, w')) :
    (∀ i, found = some i → w'.channelStreams.get? c = some i ∧
      ∀ j, w.channelStreams.get? c = some j → i = j) ∧
      (c' ≠ c → w'.channelStreams.get? c' = w.channelStreams.get? c') := by
  unfold writeChannelFrame at h
  split at h
  · obtain ⟨hfound, hother⟩ := writeOnChannel_table c' h
    refine ⟨fun i hi => ?_, hother⟩
    obtain ⟨hold, hnew⟩ := hfound i hi
    exact ⟨hnew, fun j hj => Option.some.inj (hold.symm.trans hj)⟩
  · rename_i hnew
    have hc : w.channelStreams.get? c = none := by
      simpa [Table.contains] using hnew
    split at h
    · rename_i i w₁ hopen
      obtain ⟨hfound, hother⟩ := writeOnChannel_table c' h
      refine ⟨fun i hi => ⟨(hfound i hi).2, by simp [hc]⟩, fun hne => ?_⟩
      rw [hother hne, (openChannel_table c' hopen).2 hne]
    · rename_i w₁ hopen
      cases h
      exact ⟨by simp, (openChannel_table c' hopen).2⟩

theorem writeMain_outcome (h : w.writeMain pc a msg = (outcome, w')) :
    w'.channelStreams = w.channelStreams ∧ (outcome = .stream .main ∨ outcome = .failed) := by
  unfold writeMain at h
  split at h <;> cases h
  · exact ⟨rfl, .inl rfl⟩
  · exact ⟨rfl, .inr rfl⟩

theorem writeReliable_table (c' : UInt64) (h : w.writeReliable pc a c msg = (outcome, w')) :
    (∀ i, outcome = .stream (.channel i) → w'.channelStreams.get? c = some i ∧
      ∀ j, w.channelStreams.get? c = some j → i = j) ∧
      (c' ≠ c → w'.channelStreams.get? c' = w.channelStreams.get? c') := by
  unfold writeReliable at h
  split at h
  · rename_i i w₁ hchannel
    cases h
    obtain ⟨hfound, hother⟩ := writeChannelFrame_table c' hchannel
    refine ⟨fun j hj => ?_, hother⟩
    cases hj
    exact hfound i rfl
  · rename_i w₁ hchannel
    obtain ⟨-, hother⟩ := writeChannelFrame_table c' hchannel
    obtain ⟨hsame, houtcome⟩ := writeMain_outcome h
    refine ⟨?_, fun hne => by rw [hsame, hother hne]⟩
    rintro i rfl
    obtain heq | heq := houtcome <;> cases heq

theorem closeChannelStream_table (w : Writer) (c c' : UInt64) :
    (w.closeChannelStream c).channelStreams.get? c' =
      if c' = c then none else w.channelStreams.get? c' := by
  unfold closeChannelStream
  split
  · rename_i hc
    split
    · rename_i heq
      rw [heq, hc]
    · rfl
  · simp

/-- What becomes of the streams of the other windows, and of the stream that took the message. -/
theorem handle_table (c' : UInt64) (h : w.handle pc dpc a msg = (outcome, w')) :
    (msg.channelId ≠ some c' → w'.channelStreams.get? c' = w.channelStreams.get? c') ∧
      (∀ i, outcome = .stream (.channel i) → ∃ c, msg.channelId = some c ∧
        (∀ j, w.channelStreams.get? c = some j → i = j) ∧
        w'.channelStreams.get? c = if msg.destroys c then none else some i) := by
  unfold handle at h
  split at h
  · rename_i tile
    split at h
    · rename_i frame w₁ hsent
      cases h
      obtain ⟨datagrams, rfl⟩ := sendFrameTileDatagrams_spec tile hsent
      exact ⟨fun _ => rfl, by simp⟩
    · rename_i w₁ hsent
      obtain ⟨datagrams, rfl⟩ := sendFrameTileDatagrams_spec tile hsent
      obtain ⟨hfound, hother⟩ := writeReliable_table c' h
      refine ⟨fun hne => hother fun heq => hne (by rw [heq]; rfl), fun i hi => ?_⟩
      obtain ⟨hnew, hold⟩ := hfound i hi
      exact ⟨tile.id, rfl, hold, by simpa [Message.destroys] using hnew⟩
  · rename_i event
    simp only at h
    split at h
    · rename_i w₁ hwrite
      cases h
      obtain ⟨-, hother⟩ := writeReliable_table c' hwrite
      exact ⟨fun hne => hother fun heq => hne (by rw [heq]; rfl), by simp⟩
    · rename_i outcome' w₁ hne hwrite
      cases h
      obtain ⟨hfound, hother⟩ := writeReliable_table c' hwrite
      constructor
      · intro hne'
        have hc : c' ≠ windowEventChannelId event := fun heq => hne' (by rw [heq]; rfl)
        split
        · rw [closeChannelStream_table, if_neg hc, hother hc]
        · exact hother hc
      · intro i hi
        obtain ⟨hnew, hold⟩ := hfound i hi
        refine ⟨_, rfl, hold, ?_⟩
        cases hdestroyed : event.isDestroyed with
        | true =>
          rw [if_pos rfl, closeChannelStream_table, if_pos rfl,
            if_pos (destroys_windowEvent.2 hdestroyed)]
        | false =>
          rw [if_neg Bool.false_ne_true, hnew, if_neg]
          rw [destroys_windowEvent, hdestroyed]
          exact Bool.false_ne_true
  · rename_i hother
    obtain ⟨hsame, houtcome⟩ := writeMain_outcome h
    refine ⟨fun _ => by rw [hsame], ?_⟩
    rintro i rfl
    obtain heq | heq := houtcome <;> cases heq

/-- The stream that took the message is the one of its window. -/
theorem handle_introduces (hw : w.Sound pc) (hd : w.disconnected = false) {i : Nat}
    (h : w.handle pc dpc a msg = (.stream (.channel i), w')) :
    ∃ c, msg.channelId = some c ∧ Introduces pc c (w'.stream (.channel i)) := by
  have hkept : ∀ {w₁ : Writer} {c}, w₁.Sound pc → w₁.channelStreams.get? c = some i →
      Introduces pc c (w₁.stream (.channel i)) := by
    intro w₁ c hw₁ hc
    obtain ⟨s, hs, -, -, hintro⟩ := hw₁.kept hc
    rw [stream, hs]
    exact hintro
  unfold handle at h
  split at h
  · rename_i tile
    split at h
    · cases h
    · rename_i w₁ hsent
      obtain ⟨datagrams, rfl⟩ := sendFrameTileDatagrams_spec tile hsent
      have hsame : Sound pc { w with frameSeq := w.frameSeq + 1, datagrams } ∧ Adds pc w _ _ :=
        hw.of_same rfl rfl rfl rfl
      obtain ⟨hw', -⟩ := writeReliable_spec hsame.1 hd h
      exact ⟨tile.id, rfl, hkept hw' ((writeReliable_table 0 h).1 i rfl).1⟩
  · rename_i event
    simp only at h
    split at h
    · cases h
    · rename_i outcome' w₁ hne hwrite
      cases h
      obtain ⟨hw₁, -⟩ := writeReliable_spec hw hd hwrite
      have hintro := hkept hw₁ ((writeReliable_table 0 hwrite).1 i rfl).1
      refine ⟨_, rfl, ?_⟩
      split
      · obtain ⟨-, hadds, -⟩ := closeChannelStream_spec hw₁ (windowEventChannelId event)
        obtain ⟨more, hmore⟩ := hadds.grows (.channel i)
        rw [← hmore]
        exact hintro.append more
      · exact hintro
  · obtain ⟨-, houtcome⟩ := writeMain_outcome h
    obtain heq | heq := houtcome <;> cases heq

/-! ## Without failures -/

theorem writeChannelFrame_reliable (hw : w.Sound pc) (ha : a.Reliable) (hfit : HeadersFit pc)
    (h : w.writeChannelFrame pc a c msg = (none, w')) : ∃ e, encodeFrame pc msg = .error e := by
  have hwrite : ∀ {w₁ : Writer} {i}, w₁.Sound pc → w₁.channelStreams.get? c = some i →
      w₁.writeOnChannel pc a c msg = (none, w') → ∃ e, encodeFrame pc msg = .error e := by
    intro w₁ i hw₁ hi h
    obtain ⟨s, hs, -⟩ := hw₁.kept hi
    simp only [writeOnChannel, hi, hs, SendStream.writeFrame, ha.channel] at h
    cases hframe : encodeFrame pc msg with
    | error e => exact ⟨e, rfl⟩
    | ok frame =>
      rw [hframe] at h
      cases h
  unfold writeChannelFrame at h
  split at h
  · rename_i hcontains
    obtain ⟨i, hi⟩ := (Table.contains_iff _ _).1 hcontains
    exact hwrite hw hi h
  · rename_i hnew
    have hc : w.channelStreams.get? c = none := by
      simpa [Table.contains] using hnew
    obtain ⟨header, hheader⟩ := hfit c
    have hintro : introduce pc a c = (true, { bytes := prelude ++ header, finished := false }) := by
      simp [introduce, SendStream.writeAll, SendStream.writeFrame, SendStream.opened, ha.magic,
        ha.version, ha.header, hheader, prelude]
    split at h
    · rename_i i w₁ hopen
      obtain ⟨hw₁, -⟩ := openChannel_spec hw hc hopen
      refine hwrite (i := i) hw₁ ?_ h
      simp only [openChannel, ha.opens, if_true, hintro] at hopen
      cases hopen
      simp
    · rename_i w₁ hopen
      simp only [openChannel, ha.opens, if_true, hintro] at hopen
      cases hopen

theorem writeReliable_reliable (hw : w.Sound pc) (ha : a.Reliable) (hfit : HeadersFit pc)
    (h : w.writeReliable pc a c msg = (outcome, w')) : outcome ≠ .stream .main := by
  unfold writeReliable at h
  split at h
  · cases h
    simp
  · rename_i w₁ hchannel
    obtain ⟨e, he⟩ := writeChannelFrame_reliable hw ha hfit hchannel
    simp only [writeMain, SendStream.writeFrame, he] at h
    cases h
    simp

/-- What is about a window does not go to the stream of the connection. -/
theorem handle_reliable (hw : w.Sound pc) (ha : a.Reliable) (hfit : HeadersFit pc)
    (hc : msg.channelId = some c) (h : w.handle pc dpc a msg = (outcome, w')) :
    outcome ≠ .stream .main := by
  unfold handle at h
  split at h
  · rename_i tile
    split at h
    · cases h
      simp
    · rename_i w₁ hsent
      obtain ⟨datagrams, rfl⟩ := sendFrameTileDatagrams_spec tile hsent
      have hsame : Sound pc { w with frameSeq := w.frameSeq + 1, datagrams } ∧ Adds pc w _ _ :=
        hw.of_same rfl rfl rfl rfl
      exact writeReliable_reliable hsame.1 ha hfit h
  · simp only at h
    split at h
    · cases h
      simp
    · rename_i outcome' w₁ hne hwrite
      cases h
      exact writeReliable_reliable hw ha hfit hwrite
  · rename_i hframe hwindow
    cases msg <;> first | exact absurd rfl (hframe _) | exact absurd rfl (hwindow _) | cases hc

/-! ## Datagrams -/

/-- The writer has sent no datagram. -/
def SameDatagrams (w w' : Writer) : Prop :=
  w'.frameSeq = w.frameSeq ∧ w'.datagrams = w.datagrams

theorem SameDatagrams.trans {w₁ : Writer} (h : SameDatagrams w w₁) (h' : SameDatagrams w₁ w') :
    SameDatagrams w w' := ⟨h'.1.trans h.1, h'.2.trans h.2⟩

theorem openChannel_datagrams (h : w.openChannel pc a c = (found, w')) : SameDatagrams w w' := by
  unfold openChannel at h
  split at h
  · split at h <;> cases h <;> exact ⟨rfl, rfl⟩
  · cases h
    exact ⟨rfl, rfl⟩

theorem writeOnChannel_datagrams (h : w.writeOnChannel pc a c msg = (found, w')) :
    SameDatagrams w w' := by
  unfold writeOnChannel at h
  split at h
  · cases h
    exact ⟨rfl, rfl⟩
  · split at h
    · cases h
      exact ⟨rfl, rfl⟩
    · split at h <;> cases h <;> exact ⟨rfl, rfl⟩

theorem writeChannelFrame_datagrams (h : w.writeChannelFrame pc a c msg = (found, w')) :
    SameDatagrams w w' := by
  unfold writeChannelFrame at h
  split at h
  · exact writeOnChannel_datagrams h
  · split at h
    · rename_i i w₁ hopen
      exact (openChannel_datagrams hopen).trans (writeOnChannel_datagrams h)
    · rename_i w₁ hopen
      cases h
      exact openChannel_datagrams hopen

theorem writeMain_datagrams (h : w.writeMain pc a msg = (outcome, w')) : SameDatagrams w w' := by
  unfold writeMain at h
  split at h <;> cases h <;> exact ⟨rfl, rfl⟩

theorem writeReliable_datagrams (h : w.writeReliable pc a c msg = (outcome, w')) :
    SameDatagrams w w' ∧ ∀ f, outcome ≠ .datagrams f := by
  unfold writeReliable at h
  split at h
  · rename_i i w₁ hchannel
    cases h
    exact ⟨writeChannelFrame_datagrams hchannel, by simp⟩
  · rename_i w₁ hchannel
    refine ⟨(writeChannelFrame_datagrams hchannel).trans (writeMain_datagrams h), ?_⟩
    rintro f rfl
    obtain heq | heq := (writeMain_outcome h).2 <;> cases heq

theorem closeChannelStream_datagrams (w : Writer) (c : UInt64) :
    SameDatagrams w (w.closeChannelStream c) := by
  unfold closeChannelStream
  split <;> exact ⟨rfl, rfl⟩

theorem sendFrameTileDatagrams_sends {tile : FrameTile} {frame : Option SentFrame}
    (h : w.sendFrameTileDatagrams dpc a tile = (frame, w')) :
    w'.frameSeq = w.frameSeq ∧ w.datagrams <+: w'.datagrams ∧
      ∀ f, frame = some f → f.tile = tile ∧ f.channelId = tile.id ∧ f.frameSeq = w.frameSeq ∧
        ∃ ds, f.split dpc = .ok ds ∧ w'.datagrams = w.datagrams ++ ds := by
  unfold sendFrameTileDatagrams at h
  split at h
  · cases h
    exact ⟨rfl, List.prefix_refl _, by simp⟩
  · split at h
    · cases h
      exact ⟨rfl, List.prefix_refl _, by simp⟩
    · rename_i ds hsplit
      split at h
      · cases h
        refine ⟨rfl, List.prefix_append _ _, fun f hf => ?_⟩
        cases hf
        exact ⟨rfl, rfl, rfl, ds, hsplit, rfl⟩
      · cases h
        exact ⟨rfl, List.prefix_append _ _, by simp⟩

/-- Tiles are numbered, and one that went into datagrams went there whole. -/
theorem handle_datagrams (h : w.handle pc dpc a msg = (outcome, w')) :
    w.datagrams <+: w'.datagrams ∧
      (w'.frameSeq = w.frameSeq ∨ w'.frameSeq = w.frameSeq + 1) ∧
      ∀ f, outcome = .datagrams f → msg = .frameTile f.tile ∧ f.channelId = f.tile.id ∧
        f.frameSeq = w.frameSeq + 1 ∧ w'.frameSeq = w.frameSeq + 1 ∧
        w'.channelStreams = w.channelStreams ∧
        ∃ ds, f.split dpc = .ok ds ∧ w'.datagrams = w.datagrams ++ ds := by
  unfold handle at h
  split at h
  · rename_i tile
    split at h
    · rename_i frame w₁ hsent
      cases h
      obtain ⟨hseq, hgrows, hframe⟩ := sendFrameTileDatagrams_sends hsent
      refine ⟨hgrows, .inr hseq, fun f hf => ?_⟩
      cases hf
      obtain ⟨rfl, hid, hnumber, hds⟩ := hframe frame rfl
      obtain ⟨datagrams, hw'⟩ := sendFrameTileDatagrams_spec frame.tile hsent
      exact ⟨rfl, hid, hnumber, hseq, by rw [hw'], hds⟩
    · rename_i w₁ hsent
      obtain ⟨hseq, hgrows, -⟩ := sendFrameTileDatagrams_sends hsent
      obtain ⟨hsame, hnone⟩ := writeReliable_datagrams h
      exact ⟨hsame.2 ▸ hgrows, .inr (hsame.1.trans hseq), fun f hf => absurd hf (hnone f)⟩
  · rename_i event
    simp only at h
    split at h
    · rename_i w₁ hwrite
      cases h
      obtain ⟨hsame, hnone⟩ := writeReliable_datagrams hwrite
      exact ⟨hsame.2 ▸ List.prefix_refl _, .inl hsame.1, fun f hf => absurd hf (hnone f)⟩
    · rename_i outcome' w₁ hne hwrite
      cases h
      obtain ⟨hsame, hnone⟩ := writeReliable_datagrams hwrite
      have hclosed : SameDatagrams w (if event.isDestroyed then
          w₁.closeChannelStream (windowEventChannelId event) else w₁) := by
        split
        · exact hsame.trans (closeChannelStream_datagrams _ _)
        · exact hsame
      exact ⟨hclosed.2 ▸ List.prefix_refl _, .inl hclosed.1, fun f hf => absurd hf (hnone f)⟩
  · have hsame := writeMain_datagrams h
    refine ⟨hsame.2 ▸ List.prefix_refl _, .inl hsame.1, ?_⟩
    rintro f rfl
    obtain heq | heq := (writeMain_outcome h).2 <;> cases heq

end Tables
end Writer

end VBox
