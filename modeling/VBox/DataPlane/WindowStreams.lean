import VBox.DataPlane.ViewDelivery

/-!
# DataPlane.WindowStreams

The streams of the windows in a QUIC view.

While no write fails, all messages about a window go to one stream until the window is destroyed
(`Routed`), and a stream is read in order.

* `window_events_in_order`: the viewer receives the events of a window in order, without a gap.
* `streams_accounted`: whose a stream is, and when it is open.
-/

namespace VBox

open ByteCodec ByteStream

namespace ViewLink

/-! ## The events of a window -/

/-- The message is a window event of the window. -/
def isEventOf (c : UInt64) : Message → Bool
  | .windowEvent event => windowEventChannelId event = c
  | _ => false

theorem channelId_of_isEventOf {c : UInt64} {msg : Message} (h : isEventOf c msg) :
    msg.channelId = some c := by
  cases msg <;> first | cases h | exact congrArg some (of_decide_eq_true h)

/-- Where the messages about a window went: all to one stream, which is the window's as long as it
was not destroyed. -/
structure Routed (c : UInt64) (s : ViewLink) : Prop where
  notMain : ∀ msg, (msg, Outcome.stream .main) ∈ s.handled → msg.channelId ≠ some c
  kept : ∀ msg i, (msg, Outcome.stream (.channel i)) ∈ s.handled → msg.channelId = some c →
    s.writer.channelStreams.get? c = some i ∨ s.writer.disconnected = true ∨
      ∃ last ∈ s.handled, last.1.destroys c
  one : ∀ msg msg' i j, (msg, Outcome.stream (.channel i)) ∈ s.handled →
    (msg', Outcome.stream (.channel j)) ∈ s.handled → msg.channelId = some c →
    msg'.channelId = some c → i = j

/-- Nothing about the window follows the event that destroys it. -/
def EndsWithDestroyed (c : UInt64) (msgs : List Message) : Prop :=
  ∀ before msg after, msgs = before ++ msg :: after → msg.destroys c →
    ∀ later ∈ after, later.channelId ≠ some c

section Windows

variable {pc : Postcard Message} {dpc : Postcard DataPlaneDatagram} {s : ViewLink} {c : UInt64}

theorem EndsWithDestroyed.init {msgs : List Message} {msg : Message}
    (h : EndsWithDestroyed c (msgs ++ [msg])) : EndsWithDestroyed c msgs := by
  intro before first after heq hdestroys later hlater
  refine h before first (after ++ [msg]) (by simp [heq]) hdestroys later ?_
  exact List.mem_append_left _ hlater

/-- Before a message about the window it was not destroyed. -/
theorem EndsWithDestroyed.not_before {handled : List (Message × Outcome)} {msg : Message}
    (h : EndsWithDestroyed c (handled.map Prod.fst ++ [msg])) (hc : msg.channelId = some c) :
    ¬ ∃ last ∈ handled, last.1.destroys c := by
  rintro ⟨last, hlast, hdestroys⟩
  obtain ⟨before, after, rfl⟩ := List.append_of_mem hlast
  exact h (before.map Prod.fst) last.1 (after.map Prod.fst ++ [msg]) (by simp) hdestroys _
    (List.mem_append_right _ List.mem_cons_self) hc

section Turn

variable {a : Attempt} {msg : Message} {outcome : Outcome} {writer : Writer}

/-- A message about the window goes to the stream that the window has. -/
theorem Routed.same (h : s.Routed c) (hd : s.writer.disconnected = false)
    (hturn : s.writer.handle pc dpc a msg = (outcome, writer))
    (hends : EndsWithDestroyed c (s.handled.map Prod.fst ++ [msg])) (hc : msg.channelId = some c)
    {i j : Nat} (houtcome : outcome = .stream (.channel i)) {earlier : Message}
    (hmem : (earlier, Outcome.stream (.channel j)) ∈ s.handled)
    (hc' : earlier.channelId = some c) : i = j := by
  obtain ⟨c₀, hc₀, hold, -⟩ := (Writer.handle_table c hturn).2 i houtcome
  obtain rfl : c₀ = c := Option.some.inj (hc₀.symm.trans hc)
  obtain hkept | hkept | hkept := h.kept earlier j hmem hc'
  · exact hold j hkept
  · rw [hd] at hkept
    cases hkept
  · exact absurd hkept (hends.not_before hc)

/-- The stream is the window's afterwards, unless the message destroyed the window. -/
theorem kept_of_turn (hturn : s.writer.handle pc dpc a msg = (outcome, writer))
    (hc : msg.channelId = some c) {i : Nat} (houtcome : outcome = .stream (.channel i)) :
    writer.channelStreams.get? c = some i ∨ msg.destroys c := by
  obtain ⟨c₀, hc₀, -, hnow⟩ := (Writer.handle_table c hturn).2 i houtcome
  obtain rfl : c₀ = c := Option.some.inj (hc₀.symm.trans hc)
  by_cases hdestroys : msg.destroys c₀
  · exact .inr hdestroys
  · rw [if_neg hdestroys] at hnow
    exact .inl hnow

theorem Routed.turn (h : s.Routed c) (hsound : s.writer.Sound pc)
    (hd : s.writer.disconnected = false) (hheaders : HeadersFit pc) (ha : a.Reliable)
    (hturn : s.writer.handle pc dpc a msg = (outcome, writer))
    (hends : EndsWithDestroyed c (s.handled.map Prod.fst ++ [msg])) :
    (s.turned msg outcome writer).Routed c := by
  obtain ⟨-, -, hdis⟩ := Writer.handle_adds hsound hd hturn
  have hmem : ∀ {entry}, entry ∈ (s.turned msg outcome writer).handled →
      entry ∈ s.handled ∨ entry = (msg, outcome) := by simp [turned]
  have hlast : (msg, outcome) ∈ (s.turned msg outcome writer).handled := by simp [turned]
  refine ⟨fun m hm => ?_, fun m i hm hc' => ?_, fun m m' i j hm hm' hc hc' => ?_⟩
  · obtain hold | heq := hmem hm
    · exact h.notMain m hold
    · cases heq
      exact fun hc => Writer.handle_reliable hsound ha hheaders hc hturn rfl
  · obtain hold | heq := hmem hm
    · obtain hkept | hkept | ⟨last, hin, hdestroys⟩ := h.kept m i hold hc'
      · by_cases hc : msg.channelId = some c
        · cases houtcome : outcome with
          | failed => exact .inr (.inl (hdis.2 houtcome))
          | datagrams f =>
            obtain ⟨-, -, -, -, htable, -⟩ := (Writer.handle_datagrams hturn).2.2 f houtcome
            refine .inl ?_
            show writer.channelStreams.get? c = some i
            rw [htable, hkept]
          | stream id =>
            cases id with
            | main => exact absurd houtcome (Writer.handle_reliable hsound ha hheaders hc hturn)
            | channel j =>
              obtain rfl := h.same hd hturn hends hc houtcome hold hc'
              obtain hnow | hdestroys := kept_of_turn hturn hc houtcome
              · exact .inl hnow
              · exact .inr (.inr ⟨_, houtcome ▸ hlast, hdestroys⟩)
        · refine .inl ?_
          show writer.channelStreams.get? c = some i
          rw [(Writer.handle_table c hturn).1 hc, hkept]
      · rw [hd] at hkept
        cases hkept
      · exact .inr (.inr ⟨last, List.mem_append_left _ hin, hdestroys⟩)
    · cases heq
      obtain hnow | hdestroys := kept_of_turn hturn hc' rfl
      · exact .inl hnow
      · exact .inr (.inr ⟨_, hlast, hdestroys⟩)
  · obtain hold | heq := hmem hm <;> obtain hold' | heq' := hmem hm'
    · exact h.one m m' i j hold hold' hc hc'
    · cases heq'
      exact (h.same hd hturn hends hc' rfl hold hc).symm
    · cases heq
      exact h.same hd hturn hends hc rfl hold' hc'
    · rw [Prod.mk.injEq] at heq heq'
      have := heq.2.trans heq'.2.symm
      cases this
      rfl

end Turn

/-- No write fails. -/
def ReliableSteps (steps : List Step) : Prop := ∀ a msg, Step.handle a msg ∈ steps → a.Reliable

theorem routed_run (hheaders : HeadersFit pc) {steps : List Step} (hreliable : ReliableSteps steps)
    (hends : EndsWithDestroyed c ((run pc dpc steps).handled.map Prod.fst)) : (run pc dpc steps).Routed c := by
  induction steps using List.reverseRecOn with
  | nil =>
    refine ⟨fun m hm => ?_, fun m i hm => ?_, fun m m' i j hm => ?_⟩ <;>
      exact absurd hm List.not_mem_nil
  | append_singleton steps last ih =>
    have hrun : run pc dpc (steps ++ [last]) = (run pc dpc steps).step pc dpc last := by
      simp [run]
    have hbefore : ReliableSteps steps := fun a msg hm => hreliable a msg (List.mem_append_left _ hm)
    rw [hrun] at hends ⊢
    cases last with
    | handle a msg =>
      change EndsWithDestroyed c ((ViewLink.handle pc dpc _ a msg).handled.map Prod.fst) at hends
      show (ViewLink.handle pc dpc _ a msg).Routed c
      unfold ViewLink.handle at hends ⊢
      split
      · rename_i hd
        rw [if_pos hd] at hends
        exact ih hbefore hends
      · rename_i hd
        rw [if_neg hd, List.map_append] at hends
        rw [Bool.not_eq_true] at hd
        exact (ih hbefore hends.init).turn (ok_run steps).sound hd hheaders
          (hreliable a msg (by simp)) rfl hends
    | arrive id n =>
      have h := ih hbefore hends
      exact ⟨h.notMain, h.kept, h.one⟩
    | datagram bytes =>
      have h := ih hbefore hends
      exact ⟨h.notMain, h.kept, h.one⟩

/-! ### Lists of the window's events -/

theorem filter_on_stream {l : List (Message × StreamId)} {p : Message → Bool} {id : StreamId}
    (h : ∀ entry ∈ l, p entry.1 → entry.2 = id) :
    (l.map Prod.fst).filter p = ((l.filter (·.2 = id)).map Prod.fst).filter p := by
  rw [List.filter_map, List.filter_map, List.filter_filter]
  congr 1
  refine List.filter_congr fun entry hentry => ?_
  by_cases hp : p entry.1
  · simp [hp, h entry hentry hp]
  · simp [hp]

theorem mem_sent {handled : List (Message × Outcome)} {msg : Message} {id : StreamId} :
    (msg, id) ∈ sent handled ↔ (msg, Outcome.stream id) ∈ handled := by
  simp only [sent, List.mem_filterMap]
  constructor
  · rintro ⟨⟨msg', outcome⟩, hmem, heq⟩
    cases outcome <;> cases heq
    exact hmem
  · intro hmem
    exact ⟨_, hmem, rfl⟩

/-- Window events are not tiles. -/
theorem filter_received (steps : List Step) (c : UInt64) :
    ((run pc dpc steps).events.map Prod.fst).filter (isEventOf c) =
      ((received (run pc dpc steps).events).map Prod.fst).filter (isEventOf c) := by
  have htiles : ∀ msg, (msg, none) ∈ (run pc dpc steps).events → isEventOf c msg = false := by
    intro msg hmem
    have hin : msg ∈ tiles (run pc dpc steps).events :=
      List.mem_filterMap.2 ⟨_, hmem, if_pos rfl⟩
    rw [(run_datagrams pc dpc steps).2] at hin
    obtain ⟨tile, -, rfl⟩ := List.mem_map.1 hin
    rfl
  generalize (run pc dpc steps).events = events at htiles
  induction events with
  | nil => rfl
  | cons event events ih =>
    obtain ⟨msg, id⟩ := event
    have hrest := ih fun m hm => htiles m (List.mem_cons_of_mem _ hm)
    cases id with
    | none =>
      rw [List.map_cons, List.filter_cons_of_neg (by simp [htiles msg List.mem_cons_self]), hrest]
      rfl
    | some id =>
      have hcons : received ((msg, some id) :: events) = (msg, id) :: received events := rfl
      rw [hcons, List.map_cons, List.map_cons, List.filter_cons, List.filter_cons, hrest]

theorem filter_sent {handled : List (Message × Outcome)}
    (halive : ∀ msg, (msg, Outcome.failed) ∉ handled)
    (htile : ∀ msg f, (msg, Outcome.datagrams f) ∈ handled → msg = .frameTile f.tile) (c : UInt64) :
    ((sent handled).map Prod.fst).filter (isEventOf c) =
      (handled.map Prod.fst).filter (isEventOf c) := by
  induction handled with
  | nil => rfl
  | cons entry handled ih =>
    obtain ⟨msg, outcome⟩ := entry
    have hrest := ih (fun m hm => halive m (List.mem_cons_of_mem _ hm))
      fun m f hf => htile m f (List.mem_cons_of_mem _ hf)
    cases outcome with
    | stream id =>
      have hcons : sent ((msg, .stream id) :: handled) = (msg, id) :: sent handled := rfl
      rw [hcons, List.map_cons, List.map_cons, List.filter_cons, List.filter_cons, hrest]
    | datagrams f =>
      rw [htile msg f List.mem_cons_self, List.map_cons, List.filter_cons_of_neg (by simp [isEventOf]),
        ← hrest]
      rfl
    | failed => exact absurd List.mem_cons_self (halive msg)

theorem filter_sent_prefix (h : s.Ok pc) (c : UInt64) :
    ((sent s.handled).map Prod.fst).filter (isEventOf c) <+:
      (s.handled.map Prod.fst).filter (isEventOf c) := by
  by_cases hfailed : ∃ msg, (msg, Outcome.failed) ∈ s.handled
  · obtain ⟨msg, hmem⟩ := hfailed
    obtain ⟨before, after, heq⟩ := List.append_of_mem hmem
    obtain ⟨rfl, -⟩ := h.failed before msg after heq
    have halive : ∀ m, (m, Outcome.failed) ∉ before := by
      intro m hm
      obtain ⟨b, e, rfl⟩ := List.append_of_mem hm
      have := (h.failed b m (e ++ [(msg, .failed)]) (by simp [heq])).1
      simp at this
    have htile : ∀ m f, (m, Outcome.datagrams f) ∈ before → m = .frameTile f.tile :=
      fun m f hf => h.tile m f (by rw [heq]; exact List.mem_append_left _ hf)
    have hsame : sent s.handled = sent before := by
      rw [heq, sent, List.filterMap_append]
      exact List.append_nil _
    rw [hsame, filter_sent halive htile, heq, List.map_append, List.filter_append]
    exact List.prefix_append _ _
  · rw [filter_sent (fun msg hm => hfailed ⟨msg, hm⟩) h.tile]

/-- **The events of a window come in order.** As long as no write fails, in whatever pieces and order
the streams of the connection arrive, the viewer receives the events of a window in the order they were
sent, without a gap, and all of them when everything has arrived. (Tiles that go into datagrams come at
any time.) -/
theorem window_events_in_order {pc : Postcard Message} (hheaders : HeadersFit pc)
    (dpc : Postcard DataPlaneDatagram) {steps : List Step} (hreliable : ReliableSteps steps)
    {c : UInt64} (hends : EndsWithDestroyed c ((run pc dpc steps).handled.map Prod.fst)) :
    ((run pc dpc steps).events.map Prod.fst).filter (isEventOf c) <+:
      ((run pc dpc steps).handled.map Prod.fst).filter (isEventOf c) ∧
    ((run pc dpc steps).Arrived → (run pc dpc steps).writer.disconnected = false →
      ((run pc dpc steps).events.map Prod.fst).filter (isEventOf c) =
        ((run pc dpc steps).handled.map Prod.fst).filter (isEventOf c)) := by
  have hok : (run pc dpc steps).Ok pc := ok_run steps
  have hrouted : (run pc dpc steps).Routed c := routed_run hheaders hreliable hends
  -- the one stream that the events of the window go to
  obtain ⟨id, hid⟩ : ∃ id, ∀ entry ∈ sent (run pc dpc steps).handled,
      isEventOf c entry.1 → entry.2 = id := by
    by_cases hany : ∃ entry ∈ sent (run pc dpc steps).handled, isEventOf c entry.1
    · obtain ⟨⟨msg, id⟩, hmem, hevent⟩ := hany
      refine ⟨id, fun ⟨msg', id'⟩ hmem' hevent' => ?_⟩
      have hc := channelId_of_isEventOf hevent
      have hc' := channelId_of_isEventOf hevent'
      rw [mem_sent] at hmem hmem'
      cases id with
      | main => exact absurd hc (hrouted.notMain msg hmem)
      | channel i =>
        cases id' with
        | main => exact absurd hc' (hrouted.notMain msg' hmem')
        | channel j => rw [hrouted.one msg' msg j i hmem' hmem hc' hc]
    · exact ⟨.main, fun entry hmem hevent => absurd ⟨entry, hmem, hevent⟩ hany⟩
  have hid' : ∀ entry ∈ received (run pc dpc steps).events, isEventOf c entry.1 → entry.2 = id := by
    rintro ⟨msg, on⟩ hmem hevent
    have hon : msg ∈ receivedOn (run pc dpc steps).events on :=
      List.mem_map.2 ⟨(msg, on), List.mem_filter.2 ⟨hmem, by simp⟩, rfl⟩
    have hsent := (hok.receivedOn_prefix on).subset hon
    rw [sentOn_eq] at hsent
    obtain ⟨⟨msg', on'⟩, hin, rfl⟩ := List.mem_map.1 hsent
    obtain ⟨hin, hsame⟩ := List.mem_filter.1 hin
    rw [← of_decide_eq_true hsame]
    exact hid _ hin hevent
  have hevents : ((run pc dpc steps).events.map Prod.fst).filter (isEventOf c) =
      (receivedOn (run pc dpc steps).events id).filter (isEventOf c) := by
    rw [filter_received, filter_on_stream hid']
    rfl
  have hsent : (sentOn (run pc dpc steps).handled id).filter (isEventOf c) =
      ((sent (run pc dpc steps).handled).map Prod.fst).filter (isEventOf c) := by
    rw [sentOn_eq, filter_on_stream hid]
  refine ⟨?_, fun harrived halive => ?_⟩
  · rw [hevents]
    refine ((hok.receivedOn_prefix id).filter _).trans ?_
    rw [hsent]
    exact filter_sent_prefix hok c
  · rw [hevents, hok.receivedOn_eq harrived, hsent, filter_sent (hok.alive halive) hok.tile]

/-- The name of a channel is short. -/
theorem headersFit_messageWire : HeadersFit messageWire := by
  intro channelId
  have henc : messageWire.toAllocvec
      (.dataPlaneChannel { channelId, purpose := .windowReliable }) =
      (Wire.variant 16 (by decide)).encode 7 ++
        (Wire.u64.encode channelId ++ Wire.dataPlaneChannelPurpose.encode .windowReliable) := rfl
  have hu64 := Wire.u64_length channelId
  have hvariant : ((Wire.variant 16 (by decide)).encode 7).length = 1 := by decide
  have hpurpose : (Wire.dataPlaneChannelPurpose.encode .windowReliable).length = 1 := by decide
  cases h : encodeFrame messageWire
      (.dataPlaneChannel { channelId, purpose := .windowReliable }) with
  | ok header => exact ⟨header, rfl⟩
  | error e =>
    have hbig := encodeFrame_error_iff.1 ⟨e, h⟩
    have hmax : maxFrameBytes.toNat = 64 * 1024 * 1024 := rfl
    rw [henc, List.length_append, List.length_append] at hbig
    omega

def windowClosed : Message := .windowEvent (.destroyed 7)

/-- A window that is opened and closed. Its stream comes in two pieces. -/
def briefWindow : List Step :=
  [.handle calm windowOpened, .arrive (.channel 0) 30, .handle calm windowClosed,
    .arrive (.channel 0) 100]

theorem window_events_in_order_brief :
    ((run messageWire datagramWire briefWindow).events.map Prod.fst).filter (isEventOf 7) =
      [windowOpened, windowClosed] := by
  have hreliable : ReliableSteps briefWindow := by
    intro a msg hmem
    have ha : a = calm := by
      simp only [briefWindow, List.mem_cons, Step.handle.injEq, reduceCtorEq, false_or,
        List.not_mem_nil, or_false] at hmem
      tauto
    rw [ha]
    exact ⟨rfl, rfl, rfl, rfl, rfl⟩
  have hhandled : (run messageWire datagramWire briefWindow).handled.map Prod.fst =
      [windowOpened, windowClosed] := by
    decide +kernel
  have hends : EndsWithDestroyed 7
      ((run messageWire datagramWire briefWindow).handled.map Prod.fst) := by
    rw [hhandled]
    intro before msg after heq hdestroys
    rcases before with _ | ⟨first, _ | ⟨second, before⟩⟩
    · cases heq
      exact absurd hdestroys (by decide)
    · cases heq
      exact fun later hlater => absurd hlater List.not_mem_nil
    · simp at heq
  have harrived : (run messageWire datagramWire briefWindow).Arrived := by
    rintro (_ | _ | i)
    · decide +kernel
    · decide +kernel
    · have hunis : (run messageWire datagramWire briefWindow).writer.unis.length = 1 := by
        decide +kernel
      rw [Writer.stream, List.getElem?_eq_none (by omega)]
      rfl
  have halive : (run messageWire datagramWire briefWindow).writer.disconnected = false := by
    decide +kernel
  rw [(window_events_in_order headersFit_messageWire datagramWire hreliable hends).2 harrived halive,
    hhandled]
  decide

/-! ### Whose a stream is -/

/-- What went to a stream of a window is about the window that the stream names. -/
def Named (pc : Postcard Message) (s : ViewLink) : Prop :=
  ∀ msg i, (msg, Outcome.stream (.channel i)) ∈ s.handled →
    ∃ c, msg.channelId = some c ∧ Introduces pc c (s.writer.stream (.channel i))

theorem named_run (steps : List Step) : (run pc dpc steps).Named pc := by
  induction steps using List.reverseRecOn with
  | nil => exact fun msg i hmem => absurd hmem List.not_mem_nil
  | append_singleton steps last ih =>
    have hrun : run pc dpc (steps ++ [last]) = (run pc dpc steps).step pc dpc last := by
      simp [run]
    rw [hrun]
    cases last with
    | handle a msg =>
      show (ViewLink.handle pc dpc _ a msg).Named pc
      unfold ViewLink.handle
      split
      · exact ih
      · rename_i hd
        rw [Bool.not_eq_true] at hd
        have hsound : (run pc dpc steps).writer.Sound pc := (ok_run steps).sound
        rcases hturn : (run pc dpc steps).writer.handle pc dpc a msg with ⟨outcome, writer⟩
        intro m i hmem
        obtain hmem | hmem := List.mem_append.1 hmem
        · obtain ⟨c, hc, hintro⟩ := ih m i hmem
          obtain ⟨more, hmore⟩ := (Writer.handle_adds hsound hd hturn).2.1.grows (.channel i)
          exact ⟨c, hc, hmore ▸ hintro.append more⟩
        · rw [List.mem_singleton, Prod.mk.injEq] at hmem
          obtain ⟨rfl, rfl⟩ := hmem
          exact Writer.handle_introduces hsound hd hturn
    | arrive id n => exact ih
    | datagram bytes => exact ih

/-- A message about the window went to its stream, and it was not destroyed since. -/
def Live (c : UInt64) (handled : List (Message × Outcome)) : Prop :=
  ∃ before msg i after, handled = before ++ (msg, .stream (.channel i)) :: after ∧
    msg.channelId = some c ∧ ¬ msg.destroys c ∧ ∀ entry ∈ after, ¬ entry.1.destroys c

theorem live_concat {handled : List (Message × Outcome)} {msg : Message} {outcome : Outcome} :
    Live c (handled ++ [(msg, outcome)]) ↔
      ¬ msg.destroys c ∧
        (Live c handled ∨ msg.channelId = some c ∧ ∃ i, outcome = .stream (.channel i)) := by
  constructor
  · rintro ⟨before, first, i, after, heq, hc, hfirst, hafter⟩
    obtain rfl | ⟨after, last, rfl⟩ := List.eq_nil_or_concat' after
    · obtain ⟨-, heq⟩ := List.append_inj' heq rfl
      cases heq
      exact ⟨hfirst, .inr ⟨hc, i, rfl⟩⟩
    · rw [← List.cons_append, ← List.append_assoc] at heq
      obtain ⟨rfl, hlast⟩ := List.append_inj' heq rfl
      cases hlast
      refine ⟨hafter (msg, outcome) (by simp), .inl ⟨before, first, i, after, rfl, hc, hfirst, ?_⟩⟩
      exact fun entry hentry => hafter entry (List.mem_append_left _ hentry)
  · rintro ⟨hmsg, ⟨before, first, i, after, rfl, hc, hfirst, hafter⟩ | ⟨hc, i, rfl⟩⟩
    · refine ⟨before, first, i, after ++ [(msg, outcome)], by simp, hc, hfirst, fun entry hentry => ?_⟩
      obtain hentry | hentry := List.mem_append.1 hentry
      · exact hafter entry hentry
      · rw [List.mem_singleton.1 hentry]
        exact hmsg
    · exact ⟨handled, msg, i, [], rfl, hc, hmsg, fun entry hentry => absurd hentry List.not_mem_nil⟩

theorem channelId_of_destroys {msg : Message} (h : msg.destroys c) : msg.channelId = some c := by
  rw [h]
  rfl

theorem live_run (hheaders : HeadersFit pc) {steps : List Step} (hreliable : ReliableSteps steps)
    (halive : (run pc dpc steps).writer.disconnected = false) (c : UInt64) :
    (∃ i, (run pc dpc steps).writer.channelStreams.get? c = some i) ↔
      Live c (run pc dpc steps).handled := by
  induction steps using List.reverseRecOn with
  | nil =>
    constructor
    · rintro ⟨i, hi⟩
      cases hi
    · rintro ⟨before, msg, i, after, heq, -⟩
      cases before <;> cases heq
  | append_singleton steps last ih =>
    have hrun : run pc dpc (steps ++ [last]) = (run pc dpc steps).step pc dpc last := by
      simp [run]
    have hbefore : ReliableSteps steps := fun a msg hm => hreliable a msg (List.mem_append_left _ hm)
    rw [hrun] at halive ⊢
    cases last with
    | handle a msg =>
      change (ViewLink.handle pc dpc _ a msg).writer.disconnected = false at halive
      show (∃ i, (ViewLink.handle pc dpc _ a msg).writer.channelStreams.get? c = some i) ↔
        Live c (ViewLink.handle pc dpc _ a msg).handled
      unfold ViewLink.handle at halive ⊢
      split
      · rename_i hd
        rw [if_pos hd, hd] at halive
        cases halive
      · rename_i hd
        rw [if_neg hd] at halive
        rw [Bool.not_eq_true] at hd
        have hold := ih hbefore hd
        have hsound : (run pc dpc steps).writer.Sound pc := (ok_run steps).sound
        have ha := hreliable a msg (by simp)
        rcases hturn : (run pc dpc steps).writer.handle pc dpc a msg with ⟨outcome, writer⟩
        rw [hturn] at halive
        change writer.disconnected = false at halive
        show (∃ i, writer.channelStreams.get? c = some i) ↔ Live c (_ ++ [(msg, outcome)])
        rw [live_concat, ← hold]
        obtain ⟨hother, hchannel⟩ := Writer.handle_table c hturn
        by_cases hc : msg.channelId = some c
        · cases houtcome : outcome with
          | failed =>
            rw [(Writer.handle_adds hsound hd hturn).2.2.2 houtcome] at halive
            cases halive
          | datagrams f =>
            obtain ⟨rfl, -, -, -, htable, -⟩ := (Writer.handle_datagrams hturn).2.2 f houtcome
            simp [htable, Message.destroys]
          | stream id =>
            cases id with
            | main => exact absurd houtcome (Writer.handle_reliable hsound ha hheaders hc hturn)
            | channel i =>
              obtain ⟨c₀, hc₀, -, hnow⟩ := hchannel i houtcome
              obtain rfl : c₀ = c := Option.some.inj (hc₀.symm.trans hc)
              rw [hnow]
              by_cases hdestroys : msg.destroys c₀ <;> simp [hdestroys, hc]
        · have hkeeps : ¬ msg.destroys c := fun h => hc (channelId_of_destroys h)
          simp [hother hc, hkeeps, hc]
    | arrive id n => exact ih hbefore halive
    | datagram bytes => exact ih hbefore halive

/-- **Every stream is accounted for.** No two windows share a stream; the open streams are those of the
table; what goes to a stream is about the window that the stream names; and as long as no write fails,
a window has an open stream exactly from its first message on a stream until it is destroyed. -/
theorem streams_accounted (pc : Postcard Message) (dpc : Postcard DataPlaneDatagram)
    (steps : List Step) :
    (∀ c c' i, (run pc dpc steps).writer.channelStreams.get? c = some i →
      (run pc dpc steps).writer.channelStreams.get? c' = some i → c = c') ∧
    (∀ i stream, (run pc dpc steps).writer.unis[i]? = some stream →
      (stream.finished = false ↔ ∃ c, (run pc dpc steps).writer.channelStreams.get? c = some i)) ∧
    (∀ msg i, (msg, Outcome.stream (.channel i)) ∈ (run pc dpc steps).handled →
      ∃ c, msg.channelId = some c ∧
        Introduces pc c ((run pc dpc steps).writer.stream (.channel i))) ∧
    (HeadersFit pc → ReliableSteps steps → (run pc dpc steps).writer.disconnected = false →
      ∀ c, (∃ i, (run pc dpc steps).writer.channelStreams.get? c = some i) ↔
        Live c (run pc dpc steps).handled) := by
  have hsound : (run pc dpc steps).writer.Sound pc := (ok_run steps).sound
  refine ⟨fun c c' i hi hi' => hsound.own hi hi', fun i stream hstream => ?_, named_run steps,
    fun hheaders hreliable halive c => live_run hheaders hreliable halive c⟩
  constructor
  · exact hsound.left hstream
  · rintro ⟨c, hc⟩
    obtain ⟨s, hs, hopen, -⟩ := hsound.kept hc
    rw [hstream] at hs
    cases hs
    exact hopen

end Windows
end ViewLink
end VBox
