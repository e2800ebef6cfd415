import VBox.Proto.Framing

/-!
# Session.TcpReader

The reader thread of `WaylandIo::from_tcp` (`server/src/wayland_session/io.rs`). The socket has a
1 ms read timeout, so any of the reads inside `read_frame` may fail with `WouldBlock`; the loop
then starts the frame over.

* `Reads`: what the loop makes of a socket, in big steps, tied to the thread by `delivers_iff`.
* `TimeoutsBetween`: no timeout falls inside a frame.
* `delivers_iff_timeoutsBetween`: the loop delivers what was sent in exactly that case. A timeout
  after the first byte of a frame throws the bytes read so far away, and from then on there are
  fewer bytes left than the missing messages need.
-/

namespace VBox

open ByteCodec ByteStream ByteStream.Source

/-- The `vbox-tcp-view-read` thread, and the two ends it shares with the session: the messages
sent on `inbound_tx` and the `disconnected` flag. -/
structure ReaderThread where
  reader : List Event
  inbound : List Message
  receiverOpen : Bool
  disconnected : Bool
  running : Bool
  deriving DecidableEq

namespace ReaderThread

/-- One turn of the thread's loop. -/
def step (pc : Postcard Message) (t : ReaderThread) : ReaderThread :=
  if t.running then
    match readFrame pc Source.socket t.reader with
    | (.ok msg, reader) =>
      if t.receiverOpen then { t with reader, inbound := t.inbound ++ [msg] }
      else { t with reader, disconnected := true, running := false }
    | (.error e, reader) =>
      if e.ioKind = some .wouldBlock then { t with reader }
      else { t with reader, disconnected := true, running := false }
  else t

def run (pc : Postcard Message) : Nat → ReaderThread → ReaderThread
  | 0, t => t
  | n + 1, t => run pc n (t.step pc)

end ReaderThread

/-- The thread `from_tcp` spawns, on a socket that will do `socket`. -/
def fromTcp (socket : List Event) : ReaderThread :=
  { reader := socket, inbound := [], receiverOpen := true, disconnected := false, running := true }

/-- The session receives exactly `msgs`: from some turn on that is what was sent on `inbound_tx`,
and the session is never marked disconnected. -/
def Delivers (pc : Postcard Message) (socket : List Event) (msgs : List Message) : Prop :=
  ∃ N, ∀ n, N ≤ n → ((fromTcp socket).run pc n).inbound = msgs ∧
    ((fromTcp socket).run pc n).disconnected = false

/-! ## One call of `readFrame` on a socket -/

/-- An I/O error on a socket is a timeout; `bs` is what the failed call swallowed. -/
theorem readFrame_socket_error {pc : Postcard Message} {es es' : List Event} {e : Error}
    {kind : IoErrorKind} (h : readFrame pc Source.socket es = (.error e, es'))
    (he : e.ioKind = some kind) : kind = .wouldBlock ∧ ∃ bs, Swallows es bs es' := by
  rcases Read.bind_error h with h1 | ⟨lenBuf, es1, h1, h⟩
  · obtain ⟨e₀, hr, rfl⟩ := Read.mapError_error h1
    cases he
    exact socket_readExact_error hr
  have ht1 := (socket.readExact_ok.1 (Read.mapError_ok_iff.1 h1)).2
  dsimp only at h
  split at h
  · cases h; cases he
  split at h
  · cases h; cases he
  rcases Read.bind_error h with h2 | ⟨kindBuf, es2, h2, h⟩
  · obtain ⟨e₀, hr, rfl⟩ := Read.mapError_error h2
    cases he
    obtain ⟨hk, bs, hbs⟩ := socket_readExact_error hr
    exact ⟨hk, _, hbs.after ht1⟩
  have ht2 := (socket.readExact_ok.1 (Read.mapError_ok_iff.1 h2)).2
  rcases hk : Kind.fromU32 (u32FromBe kindBuf) with _ | kind'
  · simp only [hk] at h; cases h; cases he
  simp only [hk] at h
  rcases Read.bind_error h with h3 | ⟨payload, es3, h3, h⟩
  · obtain ⟨e₀, hr, rfl⟩ := Read.mapError_error h3
    cases he
    obtain ⟨hw, bs, hbs⟩ := socket_readExact_error hr
    exact ⟨hw, _, (hbs.after ht2).after ht1⟩
  · -- the payload was read, so what failed is its decoding, which is no I/O error
    rw [Read.lift_apply, Prod.mk.injEq] at h
    rw [decodeFramePayload] at h
    split at h
    · obtain ⟨hd, -⟩ := h; cases hd; cases he
    · split at h
      · obtain ⟨hd, -⟩ := h; cases hd
      · obtain ⟨hd, -⟩ := h; cases hd; cases he

/-! ## The loop in big steps -/

/-- The loop, started on `es`, passes on `msgs` and is left waiting on a silent socket. -/
inductive Reads (pc : Postcard Message) : List Event → List Message → Prop where
  | idle : Reads pc [] []
  | frame {es es' : List Event} {msg : Message} {msgs : List Message} :
      readFrame pc Source.socket es = (.ok msg, es') → Reads pc es' msgs → Reads pc es (msg :: msgs)
  | retry {es es' : List Event} {e : Error} {msgs : List Message} :
      readFrame pc Source.socket es = (.error e, es') → e.ioKind = some .wouldBlock → es ≠ [] →
      Reads pc es' msgs → Reads pc es msgs

namespace ReaderThread

variable {pc : Postcard Message}

theorem run_add (m n : Nat) (t : ReaderThread) : t.run pc (m + n) = (t.run pc m).run pc n := by
  induction m generalizing t with
  | zero => rw [Nat.zero_add]; rfl
  | succ m ih => rw [Nat.succ_add]; exact ih _

theorem run_fixed {t : ReaderThread} (h : t.step pc = t) (n : Nat) : t.run pc n = t := by
  induction n with
  | zero => rfl
  | succ n ih => show (t.step pc).run pc n = t; rw [h, ih]

/-- The thread while it runs: `es` still to come, `sent` passed on. -/
def active (es : List Event) (sent : List Message) : ReaderThread :=
  { reader := es, inbound := sent, receiverOpen := true, disconnected := false, running := true }

theorem step_frame {es es' : List Event} {msg : Message} (sent : List Message)
    (h : readFrame pc Source.socket es = (.ok msg, es')) :
    (active es sent).step pc = active es' (sent ++ [msg]) := by
  simp [step, active, h]

theorem step_retry {es es' : List Event} {e : Error} (sent : List Message)
    (h : readFrame pc Source.socket es = (.error e, es')) (he : e.ioKind = some .wouldBlock) :
    (active es sent).step pc = active es' sent := by
  simp [step, active, h, he]

theorem step_fail {es es' : List Event} {e : Error} (sent : List Message)
    (h : readFrame pc Source.socket es = (.error e, es')) (he : e.ioKind ≠ some .wouldBlock) :
    (active es sent).step pc =
      { reader := es', inbound := sent, receiverOpen := true, disconnected := true,
        running := false } := by
  simp [step, active, h, he]

/-- A silent socket times out for ever and changes nothing. -/
theorem step_silent (sent : List Message) : (active [] sent).step pc = active [] sent :=
  step_retry (e := .io "reading frame length" .wouldBlock) sent rfl rfl

/-- Nothing that was passed on is taken back. -/
theorem inbound_prefix (n : Nat) (t : ReaderThread) : t.inbound <+: (t.run pc n).inbound := by
  induction n generalizing t with
  | zero => exact List.prefix_rfl
  | succ n ih =>
    refine List.IsPrefix.trans ?_ (ih (t.step pc))
    unfold step
    split
    · split
      · split
        · exact List.prefix_append _ _
        · exact List.prefix_rfl
      · split <;> exact List.prefix_rfl
    · exact List.prefix_rfl

theorem run_of_reads {es : List Event} {msgs : List Message} (h : Reads pc es msgs) :
    ∀ sent, ∃ N, (active es sent).run pc N = active [] (sent ++ msgs) := by
  induction h with
  | idle => intro sent; exact ⟨0, by simp [run]⟩
  | @frame es es' msg msgs hr _ ih =>
    intro sent
    obtain ⟨N, hN⟩ := ih (sent ++ [msg])
    refine ⟨N + 1, ?_⟩
    rw [run, step_frame sent hr, hN, List.append_assoc]; rfl
  | retry hr he _ _ ih =>
    intro sent
    obtain ⟨N, hN⟩ := ih sent
    exact ⟨N + 1, by rw [run, step_retry sent hr he, hN]⟩

end ReaderThread

open ReaderThread

theorem readFrame_socket_length {pc : Postcard Message} {es es' : List Event} {msg : Message}
    (h : readFrame pc Source.socket es = (.ok msg, es')) : es'.length < es.length := by
  obtain ⟨frameLen, payload, frame, hf, ht⟩ := readFrame_ok_iff.1 h
  have hes : es = frame.map .byte ++ es' := ht
  rw [hes, hf.layout]
  simp only [List.length_append, List.length_map, u32ToBe_length]; omega

theorem reads_of_run {pc : Postcard Message} : ∀ (k : Nat) (es : List Event) (sent msgs : List Message),
    es.length ≤ k →
    (∃ N, ∀ n, N ≤ n → ((active es sent).run pc n).inbound = sent ++ msgs ∧
      ((active es sent).run pc n).disconnected = false) →
    Reads pc es msgs := by
  intro k
  induction k with
  | zero =>
    intro es sent msgs hk ⟨N, hN⟩
    obtain rfl : es = [] := List.length_eq_zero_iff.1 (Nat.le_zero.1 hk)
    have := (hN N (Nat.le_refl N)).1
    rw [run_fixed (step_silent sent)] at this
    obtain rfl : msgs = [] := by simpa [active] using this
    exact .idle
  | succ k ih =>
    intro es sent msgs hk ⟨N, hN⟩
    by_cases hne : es = []
    · subst hne; exact ih [] sent msgs (Nat.zero_le _) ⟨N, hN⟩
    rcases hr : readFrame pc Source.socket es with ⟨e | msg, es'⟩
    · by_cases he : e.ioKind = some .wouldBlock
      · obtain ⟨-, bs, hbs⟩ := readFrame_socket_error hr he
        have hlt := hbs.length_lt hne
        refine .retry hr he hne (ih es' sent msgs (by omega) ⟨N, fun n hn => ?_⟩)
        have := hN (n + 1) (by omega)
        rwa [run, step_retry sent hr he] at this
      · -- any other error marks the session disconnected
        have := (hN (N + 1) (by omega)).2
        rw [run, step_fail sent hr he, run_fixed (by simp [step])] at this
        cases this
    · have hlt := readFrame_socket_length hr
      have hN' : ∀ n, N ≤ n → ((active es' (sent ++ [msg])).run pc n).inbound = sent ++ msgs ∧
          ((active es' (sent ++ [msg])).run pc n).disconnected = false := by
        intro n hn
        have := hN (n + 1) (by omega)
        rwa [run, step_frame sent hr] at this
      obtain ⟨ms, hms⟩ : (active es' (sent ++ [msg])).inbound <+:
          ((active es' (sent ++ [msg])).run pc N).inbound := inbound_prefix N _
      rw [(hN' N (Nat.le_refl N)).1] at hms
      have hmsgs : msg :: ms = msgs := by
        simpa [active, List.append_assoc] using hms
      subst hmsgs
      refine .frame hr (ih es' (sent ++ [msg]) ms (by omega) ⟨N, fun n hn => ?_⟩)
      simpa [List.append_assoc] using hN' n hn

theorem delivers_iff {pc : Postcard Message} {es : List Event} {msgs : List Message} :
    Delivers pc es msgs ↔ Reads pc es msgs := by
  constructor
  · intro h; exact reads_of_run es.length es [] msgs (Nat.le_refl _) h
  · intro h
    obtain ⟨N, hN⟩ := run_of_reads h []
    refine ⟨N, fun n hn => ?_⟩
    obtain ⟨d, rfl⟩ := Nat.exists_eq_add_of_le hn
    show ((active es []).run pc (N + d)).inbound = msgs ∧ _
    rw [show fromTcp es = active es [] from rfl, run_add, hN, run_fixed (step_silent _)]
    exact ⟨rfl, rfl⟩

/-! ## Where timeouts may fall -/

/-- Every timeout of the socket falls between two of the frames. -/
inductive TimeoutsBetween : List Bytes → List Event → Prop where
  | nil : TimeoutsBetween [] []
  | timeout {frames : List Bytes} {es : List Event} :
      TimeoutsBetween frames es → TimeoutsBetween frames (.timeout :: es)
  | frame {frames : List Bytes} {es : List Event} (frame : Bytes) :
      TimeoutsBetween frames es → TimeoutsBetween (frame :: frames) (frame.map .byte ++ es)

theorem TimeoutsBetween.payload_eq {frames : List Bytes} {es : List Event}
    (h : TimeoutsBetween frames es) : payload es = frames.flatten := by
  induction h with
  | nil => rfl
  | timeout _ ih => exact ih
  | frame frame _ ih => simp [ih]

theorem reads_of_timeoutsBetween {pc : Postcard Message} {frames : List Bytes} {es : List Event}
    (h : TimeoutsBetween frames es) : ∀ {msgs : List Message},
      List.Forall₂ (fun msg frame => encodeFrame pc msg = .ok frame) msgs frames →
      Reads pc es msgs := by
  induction h with
  | nil => intro msgs hf; cases hf; exact .idle
  | timeout _ ih => intro msgs hf; exact .retry rfl rfl (by simp) (ih hf)
  | frame frame _ ih =>
    intro msgs hf
    cases hf with
    | cons hm hms =>
      exact .frame (readFrame_ok_iff.2 ⟨_, _, _, isFrame_encodeFrame hm, rfl⟩) (ih hms)

/-- The bytes the frames of `msgs` take at least. -/
def frameBytes (pc : Postcard Message) (msgs : List Message) : Nat :=
  (msgs.map fun msg => 8 + (pc.toAllocvec msg).length).sum

theorem frameBytes_le_of_isFrame {pc : Postcard Message} (hpc : pc.Shortest) {msg : Message}
    {frameLen : UInt32} {payload frame : Bytes} (h : IsFrame pc msg frameLen payload frame) :
    8 + (pc.toAllocvec msg).length ≤ frame.length := by
  have := hpc _ _ h.decodes
  rw [h.layout]; simp; omega

/-- What the loop passed on has taken its bytes from the socket. -/
theorem Reads.frameBytes_le {pc : Postcard Message} (hpc : pc.Shortest) {es : List Event}
    {msgs : List Message} (h : Reads pc es msgs) : frameBytes pc msgs ≤ (payload es).length := by
  induction h with
  | idle => simp [frameBytes]
  | @frame es es' msg msgs hr _ ih =>
    obtain ⟨frameLen, p, frame, hf, ht⟩ := readFrame_ok_iff.1 hr
    have hes : es = frame.map .byte ++ es' := ht
    have := frameBytes_le_of_isFrame hpc hf
    rw [hes]
    simp only [frameBytes, List.map_cons, List.sum_cons, payload_append, payload_map_byte,
      List.length_append] at ih ⊢
    omega
  | retry hr he _ _ ih =>
    obtain ⟨-, bs, rfl | ⟨rfl, rfl⟩⟩ := readFrame_socket_error hr he
    · simp only [payload_append, payload, List.length_append]; omega
    · simp only [payload, List.length_nil] at ih; omega

/-- If the socket carries no more bytes than the frames of `msgs` take, the loop can pass on
`msgs` only when no byte was thrown away, i.e. every timeout met it at the start of a frame. -/
theorem Reads.timeoutsBetween {pc : Postcard Message} (hpc : pc.Shortest) {es : List Event}
    {msgs : List Message} (h : Reads pc es msgs) : (payload es).length ≤ frameBytes pc msgs →
      ∃ frames, TimeoutsBetween frames es ∧
        List.Forall₂ (fun msg frame => frame.length = 8 + (pc.toAllocvec msg).length) msgs frames := by
  induction h with
  | idle => intro _; exact ⟨[], .nil, .nil⟩
  | @frame es es' msg msgs hr hrest ih =>
    intro hle
    obtain ⟨frameLen, p, frame, hf, ht⟩ := readFrame_ok_iff.1 hr
    have hes : es = frame.map .byte ++ es' := ht
    have h1 := frameBytes_le_of_isFrame hpc hf
    have h2 := hrest.frameBytes_le hpc
    rw [hes] at hle ⊢
    simp only [frameBytes, List.map_cons, List.sum_cons, payload_append, payload_map_byte,
      List.length_append] at hle h2 ih
    obtain ⟨frames, hb, hlen⟩ := ih (by omega)
    exact ⟨frame :: frames, .frame frame hb, .cons (by omega) hlen⟩
  | retry hr he hne hrest ih =>
    intro hle
    have h2 := hrest.frameBytes_le hpc
    obtain ⟨-, bs, rfl | ⟨rfl, rfl⟩⟩ := readFrame_socket_error hr he
    · simp only [payload_append, payload_map_byte, payload, List.length_append] at hle
      obtain rfl : bs = [] := List.length_eq_zero_iff.1 (by omega)
      obtain ⟨frames, hb, hlen⟩ := ih (by omega)
      exact ⟨frames, .timeout hb, hlen⟩
    · simp only [payload, List.length_nil] at h2
      rw [payload_map_byte] at hle
      obtain rfl : bs = [] := List.length_eq_zero_iff.1 (by omega)
      exact absurd rfl hne

theorem flatten_length {pc : Postcard Message} {msgs : List Message} {frames : List Bytes}
    (hf : List.Forall₂ (fun msg frame => encodeFrame pc msg = .ok frame) msgs frames) :
    frames.flatten.length = frameBytes pc msgs := by
  induction hf with
  | nil => rfl
  | cons hm _ ih =>
    simp only [List.flatten_cons, List.length_append, frameBytes, List.map_cons, List.sum_cons,
      encodeFrame_length hm] at ih ⊢
    omega

/-- Two ways to cut one byte string into pieces of the same lengths are the same. -/
theorem frames_eq_of_flatten {pc : Postcard Message} {msgs : List Message} {frames : List Bytes}
    (hf : List.Forall₂ (fun msg frame => encodeFrame pc msg = .ok frame) msgs frames) :
    ∀ {frames' : List Bytes},
      List.Forall₂ (fun msg frame => frame.length = 8 + (pc.toAllocvec msg).length) msgs frames' →
      frames'.flatten = frames.flatten → frames' = frames := by
  induction hf with
  | nil => intro frames' h _; cases h; rfl
  | cons hm _ ih =>
    intro frames' h heq
    cases h with
    | cons hl hls =>
      rw [List.flatten_cons, List.flatten_cons] at heq
      obtain ⟨rfl, hrest⟩ := List.append_inj heq (by rw [hl, encodeFrame_length hm])
      rw [ih hls hrest]

/-- **The view reader loses no byte exactly when no timeout falls inside a frame.** For every
list of messages, every socket that carries their frames, cut by timeouts in any way: the session
receives exactly the messages, in order and without being marked disconnected, if and only if
every timeout falls between two frames. -/
theorem delivers_iff_timeoutsBetween (pc : Postcard Message) (hpc : pc.Shortest)
    (msgs : List Message) (frames : List Bytes) (socket : List Event)
    (hf : List.Forall₂ (fun msg frame => encodeFrame pc msg = .ok frame) msgs frames)
    (hs : payload socket = frames.flatten) :
    Delivers pc socket msgs ↔ TimeoutsBetween frames socket := by
  rw [delivers_iff]
  constructor
  · intro h
    have hlen : (payload socket).length = frameBytes pc msgs := by
      rw [hs]; exact flatten_length hf
    obtain ⟨frames', hb, hl⟩ := h.timeoutsBetween hpc (Nat.le_of_eq hlen)
    rw [← frames_eq_of_flatten hf hl (by rw [← hb.payload_eq, hs])]
    exact hb
  · intro h; exact reads_of_timeoutsBetween h hf

/-- A ping and a goodbye with a timeout before, between and after them. -/
theorem delivers_iff_timeoutsBetween_ping_goodbye :
    Delivers messageWire
      (.timeout :: [0, 0, 0, 7, 0, 0, 0, 10, 3, 1, 2].map .byte ++
        .timeout :: [0, 0, 0, 7, 0, 0, 0, 3, 2, 1, 120].map .byte ++ [.timeout])
      [.ping ⟨1, 2⟩, .goodbye ⟨"x"⟩] :=
  (delivers_iff_timeoutsBetween messageWire (Postcard.ofCodec_shortest _)
      [.ping ⟨1, 2⟩, .goodbye ⟨"x"⟩]
      [[0, 0, 0, 7, 0, 0, 0, 10, 3, 1, 2], [0, 0, 0, 7, 0, 0, 0, 3, 2, 1, 120]] _
      (.cons (by decide) (.cons (by decide) .nil)) rfl).2
    (.timeout (.frame [0, 0, 0, 7, 0, 0, 0, 10, 3, 1, 2]
      (.timeout (.frame [0, 0, 0, 7, 0, 0, 0, 3, 2, 1, 120] (.timeout .nil)))))

/-- A timeout after the length field of a single ping: its four bytes are dropped, the tag is
read as the next length, and the ping never arrives. -/
theorem timeout_inside_frame_not_delivered :
    ¬ ∀ (msgs : List Message) (frames : List Bytes) (socket : List Event),
      List.Forall₂ (fun msg frame => encodeFrame messageWire msg = .ok frame) msgs frames →
      payload socket = frames.flatten → Delivers messageWire socket msgs := by
  intro h
  obtain ⟨N, hN⟩ := h [.ping ⟨1, 2⟩] [[0, 0, 0, 7, 0, 0, 0, 10, 3, 1, 2]]
    ([0, 0, 0, 7].map .byte ++ .timeout :: [0, 0, 0, 10, 3, 1, 2].map .byte)
    (.cons (by decide) .nil) rfl
  have hstop : (fromTcp ([0, 0, 0, 7].map .byte ++
      .timeout :: [0, 0, 0, 10, 3, 1, 2].map .byte)).run messageWire 2 = active [] [] := by decide
  have := (hN (2 + N) (by omega)).1
  rw [run_add, hstop, run_fixed (step_silent [])] at this
  cases this

end VBox
