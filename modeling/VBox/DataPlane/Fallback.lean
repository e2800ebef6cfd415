import VBox.Lib.Runs
import VBox.Proto.Message

/-!
# DataPlane.Fallback

What becomes of outbound messages when the viewer prefers QUIC and falls back to TCP
(`spawn_view_network` in `crates/client/src/net.rs`, `view_network_async` in `data_plane/quic.rs`).

A tee thread hands every message to the QUIC network, and to the TCP channel from when the gate is
open. The QUIC side is a bridge thread and a writer task with a queue before each of them.

* `Fallback.delivers_all_iff`: which interleavings lose no message.
-/

namespace VBox

/-- A message with its place among all that were sent. -/
abbrev Numbered := Nat × Message

/-- Who has the receiver of the tee's QUIC channel. -/
inductive QuicReceiver where
  /-- `view_network_async`, until the connection stands -/
  | network
  | bridge
  | dropped
  deriving DecidableEq

structure Fallback where
  /-- everything that was ever sent on `outbound_tx` -/
  sent : List Numbered
  outbound : List Numbered
  /-- what the tee has passed to QUIC and not yet looked at the gate for -/
  hand : Option Numbered
  quicQueue : List Numbered
  quicRx : QuicReceiver
  asyncQueue : List Numbered
  /-- whether the writer task runs -/
  writer : Bool
  /-- the frames that went to the QUIC stream -/
  written : List Numbered
  /-- whether `view_network` has returned its error -/
  failed : Bool
  gate : Bool
  tcpQueue : List Numbered
  tcpStarted : Bool
  /-- what the input connection took from its channel -/
  delivered : List Numbered

namespace Fallback

def start : Fallback :=
  { sent := [], outbound := [], hand := none, quicQueue := [], quicRx := .network, asyncQueue := []
    writer := false, written := [], failed := false, gate := false, tcpQueue := []
    tcpStarted := false, delivered := [] }

/-- The steps of the threads. A step that cannot be taken changes nothing. -/
inductive Step where
  | send (msg : Message)
  /-- the tee receives a message and sends it to QUIC -/
  | teeTake
  /-- the tee loads the gate -/
  | teeCheck
  | connected
  | bridge
  | write
  | writeError
  /-- `view_network` returns an error, and its runtime is dropped with the tasks in it -/
  | fail
  | openGate
  | startTcp
  | deliver

def teeTake (s : Fallback) : Fallback :=
  match s.hand, s.outbound with
  | none, m :: rest =>
    -- a message for a receiver that is gone is dropped
    { s with
      outbound := rest
      hand := some m
      quicQueue := if s.quicRx = .dropped then s.quicQueue else s.quicQueue ++ [m] }
  | _, _ => s

def teeCheck (s : Fallback) : Fallback :=
  match s.hand with
  | none => s
  | some m => { s with hand := none, tcpQueue := if s.gate then s.tcpQueue ++ [m] else s.tcpQueue }

def connected (s : Fallback) : Fallback :=
  if s.quicRx = .network then { s with quicRx := .bridge, writer := true } else s

def bridge (s : Fallback) : Fallback :=
  match s.quicRx, s.quicQueue with
  | .bridge, m :: rest =>
    if s.writer then { s with quicQueue := rest, asyncQueue := s.asyncQueue ++ [m] }
    else { s with quicQueue := [], quicRx := .dropped }
  | _, _ => s

def write (s : Fallback) : Fallback :=
  match s.writer, s.asyncQueue with
  | true, m :: rest => { s with asyncQueue := rest, written := s.written ++ [m] }
  | _, _ => s

/-- Nobody looks at the result of the writer, so the network goes on without it. -/
def writeError (s : Fallback) : Fallback :=
  match s.writer, s.asyncQueue with
  | true, _ :: _ => { s with writer := false, asyncQueue := [] }
  | _, _ => s

def fail (s : Fallback) : Fallback :=
  if s.failed then s
  else if s.quicRx = .network then { s with failed := true, quicRx := .dropped, quicQueue := [] }
  else { s with failed := true, writer := false, asyncQueue := [] }

def openGate (s : Fallback) : Fallback := if s.failed then { s with gate := true } else s

def startTcp (s : Fallback) : Fallback := if s.gate then { s with tcpStarted := true } else s

def deliver (s : Fallback) : Fallback :=
  match s.tcpStarted, s.tcpQueue with
  | true, m :: rest => { s with tcpQueue := rest, delivered := s.delivered ++ [m] }
  | _, _ => s

def step (s : Fallback) : Step → Fallback
  | .send msg =>
    let m := (s.sent.length, msg)
    { s with sent := s.sent ++ [m], outbound := s.outbound ++ [m] }
  | .teeTake => s.teeTake
  | .teeCheck => s.teeCheck
  | .connected => s.connected
  | .bridge => s.bridge
  | .write => s.write
  | .writeError => s.writeError
  | .fail => s.fail
  | .openGate => s.openGate
  | .startTcp => s.startTcp
  | .deliver => s.deliver

def run (steps : List Step) : Fallback := steps.foldl step start

/-! ## Where a message is -/

/-- What the QUIC side has queued will still be written. -/
def QuicServes (s : Fallback) : Prop := s.quicRx = .network ∨ s.writer = true

instance (s : Fallback) : Decidable s.QuicServes := inferInstanceAs (Decidable (_ ∨ _))

/-- What waits in the queues of the QUIC side. -/
def quicWaiting (s : Fallback) : List Numbered := s.asyncQueue ++ s.quicQueue

/-- A message that was written or delivered, or that still may be. -/
def Kept (s : Fallback) (m : Numbered) : Prop :=
  m ∈ s.written ∨ m ∈ s.delivered ∨ m ∈ s.outbound ∨ s.hand = some m ∨ m ∈ s.tcpQueue ∨
    s.QuicServes ∧ m ∈ s.quicWaiting

def NoneLost (s : Fallback) : Prop := ∀ m ∈ s.sent, s.Kept m

/-- A step loses a message: the QUIC side stops while the message waits in its queues, or the tee
finds the gate closed when the QUIC side no longer serves them. -/
def Drops (s : Fallback) : Step → Numbered → Prop
  | .teeCheck, m => s.hand = some m ∧ s.gate = false ∧ ¬ s.QuicServes ∧ m ∉ s.written
  | .writeError, m =>
    (s.writer = true ∧ s.asyncQueue ≠ []) ∧ m ∈ s.quicWaiting ∧ s.hand ≠ some m
  | .fail, m => s.QuicServes ∧ m ∈ s.quicWaiting ∧ s.hand ≠ some m
  | _, _ => False

/-- What holds in every interleaving. -/
structure Ordered (s : Fallback) : Prop where
  numbered : s.sent.map Prod.fst = List.range s.sent.length
  taken : ∃ taken, s.sent = taken ++ s.outbound ∧ (∀ m, s.hand = some m → m ∈ taken) ∧
    (s.QuicServes → taken = s.written ++ s.quicWaiting)
  network : s.quicRx = .network → s.writer = false ∧ s.asyncQueue = []
  serving : s.QuicServes → s.failed = false ∧ s.quicRx ≠ .dropped
  closed : s.failed = false → s.gate = false
  untouched : s.gate = false → s.tcpQueue = [] ∧ s.delivered = []

theorem ordered_start : start.Ordered where
  numbered := rfl
  taken := ⟨[], rfl, fun m hm => (by cases hm), fun _ => rfl⟩
  network _ := ⟨rfl, rfl⟩
  serving _ := ⟨rfl, by decide⟩
  closed _ := rfl
  untouched _ := ⟨rfl, rfl⟩

theorem Ordered.nodup {s : Fallback} (h : s.Ordered) : s.sent.Nodup := by
  refine List.Nodup.of_map Prod.fst ?_
  rw [h.numbered]
  exact List.nodup_range

/-! ### The steps -/

/-- What the tee takes, and what it does with it. -/
theorem teeTake_cases (s : Fallback) :
    s.teeTake = s ∨ ∃ m rest, s.hand = none ∧ s.outbound = m :: rest ∧
      s.teeTake = { s with
        outbound := rest
        hand := some m
        quicQueue := if s.quicRx = .dropped then s.quicQueue else s.quicQueue ++ [m] } := by
  unfold teeTake
  cases hhand : s.hand with
  | some m => exact .inl rfl
  | none =>
    cases hout : s.outbound with
    | nil => exact .inl rfl
    | cons m rest => exact .inr ⟨m, rest, rfl, rfl, rfl⟩

theorem bridge_cases (s : Fallback) :
    s.bridge = s ∨ (∃ m rest, s.quicRx = .bridge ∧ s.writer = true ∧ s.quicQueue = m :: rest ∧
      s.bridge = { s with quicQueue := rest, asyncQueue := s.asyncQueue ++ [m] }) ∨
    (s.quicRx = .bridge ∧ s.writer = false ∧
      s.bridge = { s with quicQueue := [], quicRx := .dropped }) := by
  unfold bridge
  cases hrx : s.quicRx with
  | network => exact .inl rfl
  | dropped => exact .inl rfl
  | bridge =>
    cases hqueue : s.quicQueue with
    | nil => exact .inl rfl
    | cons m rest =>
      cases hwriter : s.writer with
      | true => exact .inr (.inl ⟨m, rest, rfl, rfl, rfl, by simp⟩)
      | false => exact .inr (.inr ⟨rfl, rfl, by simp⟩)

theorem write_cases (s : Fallback) :
    s.write = s ∨ ∃ m rest, s.writer = true ∧ s.asyncQueue = m :: rest ∧
      s.write = { s with asyncQueue := rest, written := s.written ++ [m] } := by
  unfold write
  cases hwriter : s.writer with
  | false => exact .inl rfl
  | true =>
    cases hqueue : s.asyncQueue with
    | nil => exact .inl rfl
    | cons m rest => exact .inr ⟨m, rest, rfl, rfl, rfl⟩

theorem writeError_cases (s : Fallback) :
    (¬ (s.writer = true ∧ s.asyncQueue ≠ []) ∧ s.writeError = s) ∨
    (s.writer = true ∧ s.asyncQueue ≠ [] ∧
      s.writeError = { s with writer := false, asyncQueue := [] }) := by
  unfold writeError
  cases hwriter : s.writer with
  | false => exact .inl ⟨by simp, rfl⟩
  | true =>
    cases hqueue : s.asyncQueue with
    | nil => exact .inl ⟨by simp, rfl⟩
    | cons m rest => exact .inr ⟨rfl, by simp, rfl⟩

theorem deliver_cases (s : Fallback) :
    s.deliver = s ∨ ∃ m rest, s.tcpQueue = m :: rest ∧
      s.deliver = { s with tcpQueue := rest, delivered := s.delivered ++ [m] } := by
  unfold deliver
  cases s.tcpStarted with
  | false => exact .inl rfl
  | true =>
    cases hqueue : s.tcpQueue with
    | nil => exact .inl rfl
    | cons m rest => exact .inr ⟨m, rest, rfl, rfl⟩

/-- The end of the QUIC side. -/
theorem fail_cases (s : Fallback) (h : s.Ordered) :
    (¬ s.QuicServes ∧
      (s.fail = s ∨ s.fail = { s with failed := true, writer := false, asyncQueue := [] })) ∨
    (s.QuicServes ∧ s.quicRx = .network ∧
      s.fail = { s with failed := true, quicRx := .dropped, quicQueue := [] }) ∨
    (s.QuicServes ∧ s.quicRx = .bridge ∧
      s.fail = { s with failed := true, writer := false, asyncQueue := [] }) := by
  unfold fail
  by_cases hserves : s.QuicServes
  · obtain ⟨hfailed, hrx⟩ := h.serving hserves
    rw [hfailed]
    cases hreceiver : s.quicRx with
    | network => exact .inr (.inl ⟨hserves, rfl, by simp⟩)
    | bridge => exact .inr (.inr ⟨hserves, rfl, by simp⟩)
    | dropped => exact absurd hreceiver hrx
  · have hnetwork : s.quicRx ≠ .network := fun hrx => hserves (.inl hrx)
    refine .inl ⟨hserves, ?_⟩
    cases s.failed with
    | true => exact .inl (by simp)
    | false => exact .inr (by simp [hnetwork])

variable {s : Fallback}

/-- When the QUIC side no longer serves, what it had queued does not matter. -/
theorem Ordered.stopped (h : s.Ordered) {s' : Fallback} (hsent : s'.sent = s.sent)
    (hout : s'.outbound = s.outbound) (hhand : s'.hand = s.hand)
    (hfailed : s'.failed = false → s.failed = false) (hgate : s'.gate = s.gate)
    (htcp : s'.tcpQueue = s.tcpQueue) (hdelivered : s'.delivered = s.delivered)
    (hnot : ¬ s'.QuicServes) : s'.Ordered := by
  obtain ⟨taken, hsent', hhand', -⟩ := h.taken
  refine ⟨?_, ⟨taken, ?_, ?_, fun hserves => absurd hserves hnot⟩,
    fun hnet => absurd (.inl hnet) hnot, fun hserves => absurd hserves hnot, ?_, ?_⟩
  · rw [hsent]
    exact h.numbered
  · rw [hsent, hout]
    exact hsent'
  · rw [hhand]
    exact hhand'
  · intro hfailed'
    rw [hgate]
    exact h.closed (hfailed hfailed')
  · intro hgate'
    rw [htcp, hdelivered]
    exact h.untouched (hgate ▸ hgate')

theorem Ordered.send (h : s.Ordered) (msg : Message) : (s.step (.send msg)).Ordered := by
  obtain ⟨taken, hsent, hhand, htaken⟩ := h.taken
  refine ⟨?_, ⟨taken, ?_, hhand, htaken⟩, h.network, h.serving, h.closed, h.untouched⟩
  · simp [Fallback.step, h.numbered, List.range_succ]
  · simp [Fallback.step, hsent]

theorem Ordered.teeTake (h : s.Ordered) : s.teeTake.Ordered := by
  obtain ⟨taken, hsent, hhand, htaken⟩ := h.taken
  obtain heq | ⟨m, rest, hnone, hout, heq⟩ := s.teeTake_cases
  · rw [heq]
    exact h
  · rw [heq]
    refine ⟨h.numbered, ⟨taken ++ [m], ?_, ?_, fun hserves => ?_⟩, h.network, h.serving, h.closed,
      h.untouched⟩
    · simp [hsent, hout]
    · intro m' hm'
      obtain rfl : m = m' := by simpa using hm'
      simp
    · have hrx := (h.serving hserves).2
      simp only [if_neg hrx, htaken hserves, quicWaiting, List.append_assoc]

theorem Ordered.teeCheck (h : s.Ordered) : s.teeCheck.Ordered := by
  obtain ⟨taken, hsent, hhand, htaken⟩ := h.taken
  simp only [Fallback.teeCheck]
  cases hheld : s.hand with
  | none => exact h
  | some m =>
    refine ⟨h.numbered, ⟨taken, hsent, fun m' hm' => (by cases hm'), htaken⟩, h.network, h.serving,
      h.closed, fun hgate => ?_⟩
    simp only at hgate
    simpa [hgate] using h.untouched hgate

theorem Ordered.connected (h : s.Ordered) : s.connected.Ordered := by
  obtain ⟨taken, hsent, hhand, htaken⟩ := h.taken
  simp only [Fallback.connected]
  split
  · rename_i hrx
    have hserves : s.QuicServes := .inl hrx
    exact ⟨h.numbered, ⟨taken, hsent, hhand, fun _ => htaken hserves⟩, fun hnet => (by cases hnet),
      fun _ => ⟨(h.serving hserves).1, fun hdropped => (by cases hdropped)⟩, h.closed, h.untouched⟩
  · exact h

theorem Ordered.bridge (h : s.Ordered) : s.bridge.Ordered := by
  obtain ⟨taken, hsent, hhand, htaken⟩ := h.taken
  obtain heq | ⟨m, rest, hrx, hwriter, hqueue, heq⟩ | ⟨hrx, hwriter, heq⟩ := s.bridge_cases
  · rw [heq]
    exact h
  · rw [heq]
    refine ⟨h.numbered, ⟨taken, hsent, hhand, fun _ => ?_⟩, fun hnet => ?_, h.serving, h.closed,
      h.untouched⟩
    · simp [htaken (.inr hwriter), quicWaiting, hqueue]
    · cases hrx.symm.trans hnet
  · rw [heq]
    refine h.stopped rfl rfl rfl id rfl rfl rfl ?_
    simp [QuicServes, hwriter]

theorem Ordered.write (h : s.Ordered) : s.write.Ordered := by
  obtain ⟨taken, hsent, hhand, htaken⟩ := h.taken
  obtain heq | ⟨m, rest, hwriter, hqueue, heq⟩ := s.write_cases
  · rw [heq]
    exact h
  · rw [heq]
    refine ⟨h.numbered, ⟨taken, hsent, hhand, fun _ => ?_⟩, fun hnet => ?_, h.serving, h.closed,
      h.untouched⟩
    · simp [htaken (.inr hwriter), quicWaiting, hqueue]
    · cases hwriter.symm.trans (h.network hnet).1

theorem Ordered.writeError (h : s.Ordered) : s.writeError.Ordered := by
  obtain ⟨-, heq⟩ | ⟨hwriter, hqueue, heq⟩ := s.writeError_cases
  · rw [heq]
    exact h
  · have hrx : s.quicRx ≠ .network := fun hnet => hqueue (h.network hnet).2
    rw [heq]
    refine h.stopped rfl rfl rfl id rfl rfl rfl ?_
    simp [QuicServes, hrx]

theorem Ordered.fail (h : s.Ordered) : s.fail.Ordered := by
  obtain ⟨hnot, heq | heq⟩ | ⟨hserves, hrx, heq⟩ | ⟨hserves, hrx, heq⟩ := s.fail_cases h
  · rw [heq]
    exact h
  · rw [heq]
    refine h.stopped rfl rfl rfl (fun hfailed => (by cases hfailed)) rfl rfl rfl ?_
    simpa [QuicServes] using fun hnet => hnot (.inl hnet)
  · rw [heq]
    refine h.stopped rfl rfl rfl (fun hfailed => (by cases hfailed)) rfl rfl rfl ?_
    simp [QuicServes, (h.network hrx).1]
  · rw [heq]
    refine h.stopped rfl rfl rfl (fun hfailed => (by cases hfailed)) rfl rfl rfl ?_
    simp [QuicServes, hrx]

theorem Ordered.openGate (h : s.Ordered) : s.openGate.Ordered := by
  obtain ⟨taken, hsent, hhand, htaken⟩ := h.taken
  simp only [Fallback.openGate]
  split
  · rename_i hfailed
    refine ⟨h.numbered, ⟨taken, hsent, hhand, htaken⟩, h.network, h.serving, fun hnot => ?_,
      fun hgate => (by cases hgate)⟩
    cases hfailed.symm.trans hnot
  · exact h

theorem Ordered.startTcp (h : s.Ordered) : s.startTcp.Ordered := by
  simp only [Fallback.startTcp]
  split
  · exact ⟨h.numbered, h.taken, h.network, h.serving, h.closed, h.untouched⟩
  · exact h

theorem Ordered.deliver (h : s.Ordered) : s.deliver.Ordered := by
  obtain heq | ⟨m, rest, hqueue, heq⟩ := s.deliver_cases
  · rw [heq]
    exact h
  · rw [heq]
    refine ⟨h.numbered, h.taken, h.network, h.serving, h.closed, fun hgate => ?_⟩
    cases hqueue.symm.trans (h.untouched hgate).1

theorem Ordered.step (h : s.Ordered) (e : Step) : (s.step e).Ordered := by
  cases e with
  | send msg => exact h.send msg
  | teeTake => exact h.teeTake
  | teeCheck => exact h.teeCheck
  | connected => exact h.connected
  | bridge => exact h.bridge
  | write => exact h.write
  | writeError => exact h.writeError
  | fail => exact h.fail
  | openGate => exact h.openGate
  | startTcp => exact h.startTcp
  | deliver => exact h.deliver

/-! ### What a step loses -/

theorem Ordered.number_lt (h : s.Ordered) {m : Numbered} (hm : m ∈ s.sent) : m.1 < s.sent.length := by
  have hmem := List.mem_map_of_mem (f := Prod.fst) hm
  rw [h.numbered] at hmem
  exact List.mem_range.1 hmem

/-- A message that waits on the QUIC side is nowhere else, but for the tee's hand. -/
theorem Ordered.waiting (h : s.Ordered) (hserves : s.QuicServes) {m : Numbered}
    (hm : m ∈ s.quicWaiting) :
    m ∈ s.sent ∧ m ∉ s.written ∧ m ∉ s.delivered ∧ m ∉ s.outbound ∧ m ∉ s.tcpQueue := by
  obtain ⟨taken, hsent, -, htaken⟩ := h.taken
  obtain ⟨htcp, hdelivered⟩ := h.untouched (h.closed (h.serving hserves).1)
  have hnodup := h.nodup
  rw [hsent, htaken hserves] at hnodup
  obtain ⟨hinner, -, houter⟩ := List.nodup_append'.1 hnodup
  obtain ⟨-, -, hwritten⟩ := List.nodup_append'.1 hinner
  refine ⟨?_, fun hw => hwritten hw hm, ?_, fun ho => houter (List.mem_append_right _ hm) ho, ?_⟩
  · rw [hsent, htaken hserves]
    exact List.mem_append_left _ (List.mem_append_right _ hm)
  · rw [hdelivered]
    exact List.not_mem_nil
  · rw [htcp]
    exact List.not_mem_nil

/-- When the QUIC side stops, what waits there is kept only in the tee's hand. -/
theorem kept_stop_iff (h : s.Ordered) (hserves : s.QuicServes) (s' : Fallback) {m : Numbered}
    (hwritten : s'.written = s.written) (hdelivered : s'.delivered = s.delivered)
    (hout : s'.outbound = s.outbound) (hhand : s'.hand = s.hand) (htcp : s'.tcpQueue = s.tcpQueue)
    (hnot : ¬ s'.QuicServes) :
    s'.Kept m ↔ s.Kept m ∧ ¬ (m ∈ s.quicWaiting ∧ s.hand ≠ some m) := by
  simp only [Kept, hwritten, hdelivered, hout, hhand, htcp, hnot, false_and, or_false, hserves,
    true_and]
  by_cases hm : m ∈ s.quicWaiting
  · obtain ⟨-, hw, hd, ho, ht⟩ := h.waiting hserves hm
    simp [hm, hw, hd, ho, ht]
  · simp [hm]

/-- The tee lets go of a message. Behind a closed gate it is kept only by the QUIC side. -/
theorem kept_teeCheck_iff (h : s.Ordered) {m : Numbered} :
    s.teeCheck.Kept m ↔ s.Kept m ∧ ¬ s.Drops .teeCheck m := by
  obtain ⟨taken, hsent, hhand, htaken⟩ := h.taken
  simp only [teeCheck]
  cases hheld : s.hand with
  | none => simp [Drops, hheld]
  | some m' =>
    have hmem := hhand m' hheld
    by_cases hm' : m' = m
    · subst hm'
      have hout : m' ∉ s.outbound := by
        have hnodup := h.nodup
        rw [hsent] at hnodup
        exact fun ho => (List.nodup_append'.1 hnodup).2.2 hmem ho
      cases hgate : s.gate with
      | true => simp [Kept, Drops, hheld, hgate]
      | false =>
        obtain ⟨htcp, hdelivered⟩ := h.untouched hgate
        by_cases hserves : s.QuicServes
        · have hplace : m' ∈ s.written ∨ m' ∈ s.quicWaiting := by
            rw [htaken hserves] at hmem
            exact List.mem_append.1 hmem
          have hkept : s.Kept m' := .inr (.inr (.inr (.inl hheld)))
          refine iff_of_true ?_ ⟨hkept, fun hdrops => hdrops.2.2.1 hserves⟩
          obtain hw | hq := hplace
          · exact .inl hw
          · exact .inr (.inr (.inr (.inr (.inr ⟨hserves, hq⟩))))
        · simp only [Kept, Drops, hheld, hgate, htcp, hdelivered, hout, hserves, Bool.false_eq_true,
            if_false, List.not_mem_nil, reduceCtorEq, false_or, true_or, or_true, true_and,
            not_false_eq_true, not_not]
          exact ⟨fun hplace => hplace.resolve_right fun hq => hserves hq.1, .inl⟩
    · cases s.gate <;> simp [Kept, QuicServes, quicWaiting, Drops, hheld, hm', Ne.symm hm']

/-- The end of the QUIC side drops what waits there. -/
theorem kept_fail_iff (h : s.Ordered) {m : Numbered} :
    s.fail.Kept m ↔ s.Kept m ∧ ¬ s.Drops .fail m := by
  obtain ⟨hnot, heq | heq⟩ | ⟨hserves, hrx, heq⟩ | ⟨hserves, hrx, heq⟩ := s.fail_cases h
  · simp [heq, Drops, hnot]
  · have hnot' : ¬ QuicServes { s with failed := true, writer := false, asyncQueue := [] } := by
      simpa [QuicServes] using fun hnet => hnot (.inl hnet)
    simp [heq, Drops, Kept, hnot, hnot']
  · have hstop := kept_stop_iff h hserves
      { s with failed := true, quicRx := .dropped, quicQueue := [] } rfl rfl rfl rfl rfl
      (by simp [QuicServes, (h.network hrx).1]) (m := m)
    rw [heq, hstop]
    simp [Drops, hserves]
  · have hstop := kept_stop_iff h hserves
      { s with failed := true, writer := false, asyncQueue := [] } rfl rfl rfl rfl rfl
      (by simp [QuicServes, hrx]) (m := m)
    rw [heq, hstop]
    simp [Drops, hserves]

/-- **One step.** What was sent before is kept by a step if it was kept and the step does not drop
it. -/
theorem kept_step_iff (h : s.Ordered) (e : Step) {m : Numbered} (hm : m ∈ s.sent) :
    (s.step e).Kept m ↔ s.Kept m ∧ ¬ s.Drops e m := by
  cases e with
  | send msg =>
    have hne : m ≠ (s.sent.length, msg) := by
      rintro rfl
      exact (h.number_lt hm).false
    simp [Fallback.step, Kept, QuicServes, quicWaiting, Drops, hne]
  | teeTake =>
    obtain heq | ⟨m', rest, hnone, hout, heq⟩ := s.teeTake_cases
    · simp [Fallback.step, heq, Drops]
    · simp only [Fallback.step, heq, Drops, not_false_eq_true, and_true]
      by_cases hm' : m = m'
      · simp [Kept, hm', hout]
      · by_cases hrx : s.quicRx = .dropped
        · simp [Kept, QuicServes, quicWaiting, hm', Ne.symm hm', hout, hnone, hrx]
        · simp [Kept, QuicServes, quicWaiting, hm', Ne.symm hm', hout, hnone, hrx]
  | teeCheck => exact kept_teeCheck_iff h
  | connected =>
    simp only [Fallback.step, connected]
    split
    · rename_i hrx
      simp [Kept, QuicServes, quicWaiting, Drops, hrx]
    · simp [Drops]
  | bridge =>
    obtain heq | ⟨m', rest, hrx, hwriter, hqueue, heq⟩ | ⟨hrx, hwriter, heq⟩ := s.bridge_cases
    · simp [Fallback.step, heq, Drops]
    · simp [Fallback.step, heq, Drops, Kept, QuicServes, quicWaiting, hqueue]
    · simp [Fallback.step, heq, Drops, Kept, QuicServes, hrx, hwriter]
  | write =>
    obtain heq | ⟨m', rest, hwriter, hqueue, heq⟩ := s.write_cases
    · simp [Fallback.step, heq, Drops]
    · simp only [Fallback.step, heq, Drops, Kept, QuicServes, quicWaiting, hqueue, hwriter,
        List.cons_append, List.mem_append, List.mem_cons, List.not_mem_nil, or_false, or_true, true_and,
        not_false_eq_true, and_true]
      grind
  | writeError =>
    obtain ⟨hnot, heq⟩ | ⟨hwriter, hqueue, heq⟩ := s.writeError_cases
    · have hdrops : ¬ s.Drops .writeError m := fun hdrops => hnot hdrops.1
      simp [Fallback.step, heq, hdrops]
    · have hrx : s.quicRx ≠ .network := fun hnet => hqueue (h.network hnet).2
      have hstop := kept_stop_iff h (.inr hwriter) { s with writer := false, asyncQueue := [] } rfl rfl
        rfl rfl rfl (by simp [QuicServes, hrx]) (m := m)
      rw [Fallback.step, heq, hstop]
      simp [Drops, hwriter, hqueue]
  | fail => exact kept_fail_iff h
  | openGate =>
    simp only [Fallback.step, openGate]
    split <;> simp [Kept, QuicServes, quicWaiting, Drops]
  | startTcp =>
    simp only [Fallback.step, startTcp]
    split <;> simp [Kept, QuicServes, quicWaiting, Drops]
  | deliver =>
    obtain heq | ⟨m', rest, hqueue, heq⟩ := s.deliver_cases
    · simp [Fallback.step, heq, Drops]
    · simp only [Fallback.step, heq, Drops, Kept, QuicServes, quicWaiting, hqueue, List.mem_append,
        List.mem_cons, List.not_mem_nil, or_false, not_false_eq_true, and_true]
      grind

/-! ## Runs -/

theorem mem_sent_step (s : Fallback) (e : Step) {m : Numbered} :
    m ∈ (s.step e).sent ↔ m ∈ s.sent ∨ ∃ msg, e = .send msg ∧ m = (s.sent.length, msg) := by
  cases e with
  | send msg => simp [Fallback.step]
  | teeTake => obtain heq | ⟨_, _, -, -, heq⟩ := s.teeTake_cases <;> simp [Fallback.step, heq]
  | teeCheck => cases hhand : s.hand <;> simp [Fallback.step, teeCheck, hhand]
  | connected => by_cases hrx : s.quicRx = .network <;> simp [Fallback.step, connected, hrx]
  | bridge =>
    obtain heq | ⟨_, _, -, -, -, heq⟩ | ⟨-, -, heq⟩ := s.bridge_cases <;> simp [Fallback.step, heq]
  | write => obtain heq | ⟨_, _, -, -, heq⟩ := s.write_cases <;> simp [Fallback.step, heq]
  | writeError => obtain ⟨-, heq⟩ | ⟨-, -, heq⟩ := s.writeError_cases <;> simp [Fallback.step, heq]
  | fail =>
    simp only [Fallback.step, fail]
    split_ifs <;> simp
  | openGate => cases hfailed : s.failed <;> simp [Fallback.step, openGate, hfailed]
  | startTcp => cases hgate : s.gate <;> simp [Fallback.step, startTcp, hgate]
  | deliver => obtain heq | ⟨_, _, -, heq⟩ := s.deliver_cases <;> simp [Fallback.step, heq]

theorem Ordered.mem_sent_of_drops (h : s.Ordered) {e : Step} {m : Numbered} (hdrops : s.Drops e m) :
    m ∈ s.sent := by
  cases e with
  | teeCheck =>
    obtain ⟨taken, hsent, hhand, -⟩ := h.taken
    rw [hsent]
    exact List.mem_append_left _ (hhand m hdrops.1)
  | writeError => exact (h.waiting (.inr hdrops.1.1) hdrops.2.1).1
  | fail => exact (h.waiting hdrops.1 hdrops.2.1).1
  | _ => cases hdrops

theorem noneLost_step_iff (h : s.Ordered) (e : Step) :
    (s.step e).NoneLost ↔ s.NoneLost ∧ ∀ m, ¬ s.Drops e m := by
  constructor
  · intro hnone
    have hkept : ∀ m ∈ s.sent, s.Kept m ∧ ¬ s.Drops e m := fun m hm =>
      (kept_step_iff h e hm).1 (hnone m ((s.mem_sent_step e).2 (.inl hm)))
    exact ⟨fun m hm => (hkept m hm).1,
      fun m hdrops => (hkept m (h.mem_sent_of_drops hdrops)).2 hdrops⟩
  · rintro ⟨hnone, hdrops⟩ m hm
    obtain hm | ⟨msg, rfl, rfl⟩ := (s.mem_sent_step e).1 hm
    · exact (kept_step_iff h e hm).2 ⟨hnone m hm, hdrops m⟩
    · exact .inr (.inr (.inl (by simp [Fallback.step])))

theorem run_ordered (steps : List Step) : (run steps).Ordered :=
  Runs.foldl_inv ordered_start (fun _ e h => h.step e) steps

/-- A message that a step dropped never comes back. -/
theorem noneLost_run_iff (steps : List Step) :
    (run steps).NoneLost ↔ ∀ past e, past ++ [e] <+: steps → ∀ m, ¬ (run past).Drops e m :=
  Runs.foldl_iff (fun m hm => by cases hm) ordered_start (fun _ e h => h.step e)
    (fun _ e h => noneLost_step_iff h e) steps

/-- The fallback is done, and nothing is under way. -/
structure Settled (s : Fallback) : Prop where
  failed : s.failed = true
  outbound : s.outbound = []
  hand : s.hand = none
  tcpQueue : s.tcpQueue = []

/-- **The fallback to TCP.** In a run in which the QUIC network fails and the threads come to rest,
every message was written to the QUIC stream or taken by the TCP connection exactly if no step dropped
one: the QUIC side never stopped, by its failure or by that of a write, while a message waited in its
queues that the tee was done with, and the tee never found the gate closed after that. -/
theorem delivers_all_iff {steps : List Step} (h : (run steps).Settled) :
    (∀ m ∈ (run steps).sent, m ∈ (run steps).written ∨ m ∈ (run steps).delivered) ↔
      ∀ past e, past ++ [e] <+: steps → ∀ m, ¬ (run past).Drops e m := by
  have hnot : ¬ (run steps).QuicServes := by
    intro hserves
    have hfailed := ((run_ordered steps).serving hserves).1
    rw [h.failed] at hfailed
    cases hfailed
  rw [← noneLost_run_iff]
  refine forall₂_congr fun m _ => ?_
  simp [Kept, h.outbound, h.hand, h.tcpQueue, hnot]

/-- A key is pressed over QUIC, the network fails, and the key is released over TCP. -/
def lateFailure : List Step :=
  [.send (.inputEvent (.key 1 30 .pressed)), .connected, .teeTake, .teeCheck, .bridge, .write, .fail,
    .openGate, .startTcp, .send (.inputEvent (.key 1 30 .released)), .teeTake, .teeCheck, .deliver]

theorem delivers_all_iff_late :
    (run lateFailure).Settled ∧
      ∀ past e, past ++ [e] <+: lateFailure → ∀ m, ¬ (run past).Drops e m := by
  have hsettled : (run lateFailure).Settled := ⟨rfl, rfl, rfl, rfl⟩
  exact ⟨hsettled, (delivers_all_iff hsettled).1 (by decide)⟩

/-- A key goes down while the QUIC network still connects, and the connection times out. -/
theorem press_lost_while_connecting :
    ¬ ∀ steps, (run steps).Settled →
      ∀ m ∈ (run steps).sent, m ∈ (run steps).written ∨ m ∈ (run steps).delivered := by
  intro h
  have hlost := h [.send (.inputEvent (.key 1 30 .pressed)), .teeTake, .teeCheck, .fail, .openGate,
    .startTcp] ⟨rfl, rfl, rfl, rfl⟩
  revert hlost
  decide

end Fallback
end VBox
