import VBox.DataPlane.ChannelTables
import VBox.DataPlane.Reassembly
import VBox.Lib.Runs

/-!
# DataPlane.ViewLink

A QUIC view from the queue of the server's writer to the events of the viewer: the writer
(`DataPlane.Channels`), and the client's readers (`view_network_async` and `read_channel_stream` in
`crates/client/src/data_plane/quic.rs`), one for every stream and one for the datagrams. Any step can
come at any time, with any part of a stream.

* `delivered_once`: what goes to the streams comes out once, whatever fails.
-/

namespace VBox

open ByteCodec ByteStream

structure ViewLink where
  writer : Writer
  /-- What the writer took from its queue, and what became of it. -/
  handled : List (Message × Outcome)
  /-- How many bytes of each stream have come. -/
  seen : StreamId → Nat
  assembler : FrameTileDatagramAssembler
  /-- What was sent to the event loop, and off which stream it was read. -/
  events : List (Message × Option StreamId)

namespace ViewLink

inductive Step where
  | handle (a : Attempt) (msg : Message)
  /-- More bytes of a stream. Its reader sends on the messages that are complete. -/
  | arrive (id : StreamId) (n : Nat)
  | datagram (bytes : Bytes)

section Code

variable (pc : Postcard Message) (dpc : Postcard DataPlaneDatagram)

def start : ViewLink :=
  { writer := .start, handled := [], seen := fun _ => 0, assembler := .default, events := [] }

def handle (s : ViewLink) (a : Attempt) (msg : Message) : ViewLink :=
  if s.writer.disconnected then s
  else
    let (outcome, writer) := s.writer.handle pc dpc a msg
    { s with writer, handled := s.handled ++ [(msg, outcome)] }

def arrive (s : ViewLink) (id : StreamId) (n : Nat) : ViewLink :=
  let bytes := s.writer.stream id
  let seen := min (s.seen id + n) bytes.length
  let before := id.messages pc (bytes.take (s.seen id))
  let now := id.messages pc (bytes.take seen)
  { s with
    seen := Function.update s.seen id seen
    events := s.events ++ (now.drop before.length).map (·, some id) }

def datagram (s : ViewLink) (bytes : Bytes) : ViewLink :=
  let (assembler, tile) := receive dpc s.assembler bytes
  { s with assembler, events := s.events ++ tile.toList.map (.frameTile ·, none) }

def step (s : ViewLink) : Step → ViewLink
  | .handle a msg => s.handle pc dpc a msg
  | .arrive id n => s.arrive pc id n
  | .datagram bytes => s.datagram dpc bytes

def run (steps : List Step) : ViewLink := steps.foldl (step pc dpc) start

end Code

/-! ## What was sent and received -/

/-- The messages that went to a stream. -/
def sentOn (handled : List (Message × Outcome)) (id : StreamId) : List Message :=
  handled.flatMap fun (msg, outcome) => outcome.added msg id

def sent (handled : List (Message × Outcome)) : List (Message × StreamId) :=
  handled.filterMap fun (msg, outcome) => Outcome.streamed msg outcome

def received (events : List (Message × Option StreamId)) : List (Message × StreamId) :=
  events.filterMap fun (msg, id) => id.map (msg, ·)

/-- What was read off a stream. -/
def receivedOn (events : List (Message × Option StreamId)) (id : StreamId) : List Message :=
  ((received events).filter (·.2 = id)).map Prod.fst

/-- The state after a turn. -/
def turned (s : ViewLink) (msg : Message) (outcome : Outcome) (writer : Writer) : ViewLink :=
  { s with writer, handled := s.handled ++ [(msg, outcome)] }

/-- Everything that was written has come. -/
def Arrived (s : ViewLink) : Prop := ∀ id, s.seen id = (s.writer.stream id).length

section Lists

theorem sentOn_concat (handled : List (Message × Outcome)) (msg : Message) (outcome : Outcome)
    (id : StreamId) :
    sentOn (handled ++ [(msg, outcome)]) id = sentOn handled id ++ outcome.added msg id := by
  simp [sentOn]

theorem sentOn_eq (handled : List (Message × Outcome)) (id : StreamId) :
    sentOn handled id = ((sent handled).filter (·.2 = id)).map Prod.fst := by
  induction handled with
  | nil => rfl
  | cons entry handled ih =>
    obtain ⟨msg, outcome⟩ := entry
    have hcons : sentOn ((msg, outcome) :: handled) id = outcome.added msg id ++ sentOn handled id :=
      rfl
    rw [hcons, ih]
    cases outcome with
    | stream on =>
      by_cases h : id = on
      · simp [sent, Outcome.streamed, Outcome.added, h]
      · simp [sent, Outcome.streamed, Outcome.added, h, Ne.symm h]
    | datagrams frame => simp [sent, Outcome.streamed, Outcome.added]
    | failed => simp [sent, Outcome.streamed, Outcome.added]

theorem receivedOn_append (events new : List (Message × Option StreamId)) (id : StreamId) :
    receivedOn (events ++ new) id = receivedOn events id ++ receivedOn new id := by
  simp [receivedOn, received]

theorem receivedOn_map_some (msgs : List Message) (id on : StreamId) :
    receivedOn (msgs.map (·, some on)) id = if id = on then msgs else [] := by
  induction msgs with
  | nil => simp [receivedOn, received]
  | cons msg msgs ih =>
    by_cases h : id = on
    · subst h
      simpa [receivedOn, received] using ih
    · simp [receivedOn, received, h, Ne.symm h]

theorem receivedOn_tiles (tiles : List FrameTile) (id : StreamId) :
    receivedOn (tiles.map (.frameTile ·, none)) id = [] := by
  simp [receivedOn, received]

/-- Lists that agree on every stream are the same up to the order between the streams. -/
theorem perm_of_streams {l l' : List (Message × StreamId)}
    (h : ∀ id, (l.filter (·.2 = id)).map Prod.fst = (l'.filter (·.2 = id)).map Prod.fst) :
    l.Perm l' := by
  have hcount : ∀ (l : List (Message × StreamId)) (entry : Message × StreamId),
      l.count entry = ((l.filter (·.2 = entry.2)).map Prod.fst).count entry.1 := by
    intro l entry
    induction l with
    | nil => rfl
    | cons first l ih =>
      obtain ⟨msg, id⟩ := first
      obtain ⟨msg', id'⟩ := entry
      by_cases hid : id = id'
      · subst hid
        by_cases hmsg : msg = msg' <;> simp_all
      · simp_all
  rw [List.perm_iff_count]
  intro entry
  rw [hcount, hcount, h]

end Lists

/-! ## The invariant -/

structure Ok (pc : Postcard Message) (s : ViewLink) : Prop where
  sound : s.writer.Sound pc
  sent : ∀ id, s.writer.messages pc id = sentOn s.handled id
  seen_le : ∀ id, s.seen id ≤ (s.writer.stream id).length
  received : ∀ id, receivedOn s.events id = id.messages pc ((s.writer.stream id).take (s.seen id))
  failed : ∀ before msg after, s.handled = before ++ (msg, .failed) :: after →
    after = [] ∧ s.writer.disconnected = true
  tile : ∀ msg f, (msg, Outcome.datagrams f) ∈ s.handled → msg = .frameTile f.tile

section Runs

variable {pc : Postcard Message} {dpc : Postcard DataPlaneDatagram} {s : ViewLink}

theorem ok_start : start.Ok pc := by
  have hnone : ∀ id : StreamId, id.messages pc [] = [] := by
    intro id
    cases id <;> rfl
  have hempty : ∀ id, start.writer.stream id = [] := by
    intro id
    cases id <;> rfl
  refine ⟨Writer.sound_start, fun id => ?_, fun id => Nat.zero_le _, fun id => ?_, ?_,
    fun msg f hf => absurd hf List.not_mem_nil⟩
  · rw [Writer.messages, hempty, hnone]
    rfl
  · rw [hempty, List.take_nil, hnone]
    rfl
  · intro before msg after h
    cases before <;> cases h

theorem Ok.handle (h : s.Ok pc) (a : Attempt) (msg : Message) : (s.handle pc dpc a msg).Ok pc := by
  unfold ViewLink.handle
  split
  · exact h
  · rename_i hd
    rw [Bool.not_eq_true] at hd
    rcases hturn : s.writer.handle pc dpc a msg with ⟨outcome, writer⟩
    obtain ⟨hsound, hadds, hdis⟩ := Writer.handle_adds h.sound hd hturn
    refine ⟨hsound, fun id => ?_, fun id => ?_, fun id => ?_, ?_, fun msg' f hf => ?_⟩
    · show writer.messages pc id = sentOn (s.handled ++ [(msg, outcome)]) id
      rw [sentOn_concat, hadds.reads, h.sent]
    · exact (h.seen_le id).trans (hadds.grows id).length_le
    · show receivedOn s.events id = id.messages pc ((writer.stream id).take (s.seen id))
      obtain ⟨more, hmore⟩ := hadds.grows id
      rw [h.received, ← hmore, List.take_append_of_le_length (h.seen_le id)]
    · intro before msg' after heq
      change s.handled ++ [(msg, outcome)] = _ at heq
      obtain rfl | ⟨after', last, rfl⟩ := List.eq_nil_or_concat' after
      · obtain ⟨-, heq⟩ := List.append_inj' heq rfl
        cases heq
        exact ⟨rfl, hdis.2 rfl⟩
      · rw [← List.cons_append, ← List.append_assoc] at heq
        have := (h.failed before msg' after' (List.append_inj' heq rfl).1).2
        rw [hd] at this
        cases this
    · obtain hf | hf := List.mem_append.1 hf
      · exact h.tile msg' f hf
      · rw [List.mem_singleton, Prod.mk.injEq] at hf
        obtain ⟨rfl, rfl⟩ := hf
        exact ((Writer.handle_datagrams hturn).2.2 f rfl).1

theorem Ok.arrive (h : s.Ok pc) (id : StreamId) (n : Nat) : (s.arrive pc id n).Ok pc := by
  refine ⟨h.sound, h.sent, fun id' => ?_, fun id' => ?_, h.failed, h.tile⟩
  · show Function.update s.seen id _ id' ≤ (s.writer.stream id').length
    by_cases hid : id' = id
    · subst hid
      simp
    · rw [Function.update_of_ne hid]
      exact h.seen_le id'
  · show receivedOn (s.events ++ _) id' =
      id'.messages pc ((s.writer.stream id').take (Function.update s.seen id _ id'))
    rw [receivedOn_append, receivedOn_map_some, h.received]
    by_cases hid : id' = id
    · subst hid
      rw [if_pos rfl, Function.update_self]
      -- the messages before are the first of the messages now
      have hle : s.seen id' ≤ min (s.seen id' + n) (s.writer.stream id').length := by
        have := h.seen_le id'
        omega
      have htake : ((s.writer.stream id').take (min (s.seen id' + n) (s.writer.stream id').length)).take
          (s.seen id') = (s.writer.stream id').take (s.seen id') := by
        rw [List.take_take, min_eq_left hle]
      have hgrows := id'.messages_prefix pc ((s.writer.stream id').take (s.seen id'))
        (((s.writer.stream id').take (min (s.seen id' + n) (s.writer.stream id').length)).drop
          (s.seen id'))
      rw [← htake, List.take_append_drop, htake] at hgrows
      obtain ⟨more, hmore⟩ := hgrows
      rw [← hmore, List.drop_left]
    · rw [if_neg hid, Function.update_of_ne hid, List.append_nil]

theorem Ok.datagram (h : s.Ok pc) (bytes : Bytes) : (s.datagram dpc bytes).Ok pc := by
  refine ⟨h.sound, h.sent, h.seen_le, fun id => ?_, h.failed, h.tile⟩
  show receivedOn (s.events ++ _) id = _
  rw [receivedOn_append, receivedOn_tiles, List.append_nil]
  exact h.received id

theorem Ok.step (h : s.Ok pc) (next : Step) : (s.step pc dpc next).Ok pc := by
  cases next with
  | handle a msg => exact h.handle a msg
  | arrive id n => exact h.arrive id n
  | datagram bytes => exact h.datagram bytes

theorem ok_run (steps : List Step) : (run pc dpc steps).Ok pc :=
  Runs.foldl_inv ok_start (fun _ next h => h.step next) steps

theorem Ok.receivedOn_prefix (h : s.Ok pc) (id : StreamId) :
    receivedOn s.events id <+: sentOn s.handled id := by
  have := id.messages_prefix pc ((s.writer.stream id).take (s.seen id))
    ((s.writer.stream id).drop (s.seen id))
  rw [List.take_append_drop] at this
  rw [h.received, ← h.sent]
  exact this

theorem Ok.receivedOn_eq (h : s.Ok pc) (harrived : s.Arrived) (id : StreamId) :
    receivedOn s.events id = sentOn s.handled id := by
  rw [h.received, harrived, List.take_length, ← h.sent]
  rfl

theorem Ok.alive (h : s.Ok pc) (halive : s.writer.disconnected = false) (msg : Message) :
    (msg, Outcome.failed) ∉ s.handled := by
  intro hmem
  obtain ⟨before, after, heq⟩ := List.append_of_mem hmem
  rw [(h.failed before msg after heq).2] at halive
  cases halive

/-- **Streams lose nothing and double nothing.** Whatever writes fail, and in whatever pieces the
streams arrive: what was read off a stream is the beginning of what went to it, when everything has
arrived each message that went to a stream has come out once, and a message goes nowhere only if it was
the last the writer took. -/
theorem delivered_once (pc : Postcard Message) (dpc : Postcard DataPlaneDatagram)
    (steps : List Step) :
    (∀ id, receivedOn (run pc dpc steps).events id <+: sentOn (run pc dpc steps).handled id) ∧
    ((run pc dpc steps).Arrived →
      (received (run pc dpc steps).events).Perm (sent (run pc dpc steps).handled)) ∧
    (∀ before msg after, (run pc dpc steps).handled = before ++ (msg, .failed) :: after →
      after = [] ∧ (run pc dpc steps).writer.disconnected = true) := by
  have hok : (run pc dpc steps).Ok pc := ok_run steps
  refine ⟨hok.receivedOn_prefix, fun harrived => perm_of_streams fun id => ?_, hok.failed⟩
  rw [← sentOn_eq, ← hok.receivedOn_eq harrived]
  rfl

end Runs

end ViewLink
end VBox
