import VBox.DataPlane.Datagram
import VBox.Lib.Table
import VBox.Proto.Prelude

/-!
# DataPlane.Channels

The server's writer task of a QUIC view (`handle_connection` in
`crates/server/src/data_plane/quic_listener.rs`, with `write_channel_frame`, `close_channel_stream` and
`send_frame_tile_datagrams`). A tile goes into datagrams. A window event, and a tile whose datagrams
fail, goes to the stream of its window, which is opened for it; everything else, and what a window's
stream does not take, goes to the stream of the connection.

A stream is the bytes that quinn has taken from it. A write that fails has taken a part of them.

* `Writer.Sound`: open streams end with a whole frame, and every open stream belongs to one window.
* `Writer.handle_adds`: what the client can read off the streams grows by the message, on the stream
  that took it.
-/

namespace VBox

open ByteCodec ByteStream

/-! ## Streams -/

structure SendStream where
  bytes : Bytes
  /-- By `finish`, or because it was dropped. -/
  finished : Bool
  deriving DecidableEq

/-- How much a write takes: all of the bytes, or some of them before an error. -/
inductive Taken where
  | all
  | cut (n : Nat)
  deriving DecidableEq

namespace SendStream

def opened : SendStream := { bytes := [], finished := false }

def finish (s : SendStream) : SendStream := { s with finished := true }

def writeAll (s : SendStream) (taken : Taken) (bs : Bytes) : Bool × SendStream :=
  match taken with
  | .all => (true, { s with bytes := s.bytes ++ bs })
  -- an error comes before the last byte is taken
  | .cut n => (false, { s with bytes := s.bytes ++ bs.dropLast.take n })

def writeFrame (pc : Postcard Message) (s : SendStream) (taken : Taken) (msg : Message) :
    Bool × SendStream :=
  match encodeFrame pc msg with
  | .error _ => (false, s)
  | .ok frame => s.writeAll taken frame

end SendStream

/-! ## The writer -/

/-- What the connection does about one message. -/
structure Attempt where
  maxDatagramSize : Option Nat
  /-- How many datagrams can be sent before an error. -/
  datagramsTaken : Nat
  opens : Bool
  magic : Taken
  version : Taken
  header : Taken
  channel : Taken
  main : Taken

/-- The connection's own stream, or one of those that were opened after it. -/
inductive StreamId where
  | main
  | channel (i : Nat)
  deriving DecidableEq

instance : DecidableEq SentFrame := fun f g =>
  decidable_of_iff (f.tile = g.tile ∧ f.channelId = g.channelId ∧ f.frameSeq = g.frameSeq ∧
    f.maxDatagramSize = g.maxDatagramSize) (by cases f; cases g; simp)

/-- Where a message goes. -/
inductive Outcome where
  | stream (id : StreamId)
  | datagrams (frame : SentFrame)
  | failed
  deriving DecidableEq

structure Writer where
  send : SendStream
  /-- All the streams that were opened for windows, in order. -/
  unis : List SendStream
  /-- By their place in `unis`. -/
  channelStreams : Table UInt64 Nat
  frameSeq : UInt64
  datagrams : List Bytes
  disconnected : Bool

def windowEventChannelId : WindowEvent → UInt64
  | .created id _ _ _ | .configured id _ | .destroyed id | .titleChanged id _ | .minimized id
  | .moveRequested id | .fullscreenChanged id _ => id

def WindowEvent.isDestroyed : WindowEvent → Bool
  | .destroyed _ => true
  | _ => false

namespace Writer

section Code

variable (pc : Postcard Message) (dpc : Postcard DataPlaneDatagram)

def start : Writer :=
  { send := .opened, unis := [], channelStreams := .empty, frameSeq := 0, datagrams := []
    disconnected := false }

/-- A new stream, up to the frame that says whose it is. -/
def introduce (a : Attempt) (channelId : UInt64) : Bool × SendStream :=
  let (ok, s) := SendStream.opened.writeAll a.magic VBox.magic
  if ok then
    let (ok, s) := s.writeAll a.version (u16ToBe protocolVersion)
    if ok then
      s.writeFrame pc a.header (.dataPlaneChannel { channelId, purpose := .windowReliable })
    else (false, s)
  else (false, s)

/-- The first part of `write_channel_frame`. A stream that is not kept is dropped, which finishes it. -/
def openChannel (w : Writer) (a : Attempt) (channelId : UInt64) : Option Nat × Writer :=
  if a.opens then
    match introduce pc a channelId with
    | (true, s) =>
      (some w.unis.length, { w with
        unis := w.unis ++ [s]
        channelStreams := w.channelStreams.insert channelId w.unis.length })
    | (false, s) => (none, { w with unis := w.unis ++ [s.finish] })
  else (none, w)

/-- The second part: the frame, on the stream of the channel. -/
def writeOnChannel (w : Writer) (a : Attempt) (channelId : UInt64) (msg : Message) :
    Option Nat × Writer :=
  match w.channelStreams.get? channelId with
  | none => (none, w)
  | some i =>
    match w.unis[i]? with
    | none => (none, w)
    | some s =>
      match s.writeFrame pc a.channel msg with
      | (true, s) => (some i, { w with unis := w.unis.set i s })
      | (false, s) => (none, { w with
          unis := w.unis.set i s.finish
          channelStreams := w.channelStreams.remove channelId })

def writeChannelFrame (w : Writer) (a : Attempt) (channelId : UInt64) (msg : Message) :
    Option Nat × Writer :=
  if w.channelStreams.contains channelId then w.writeOnChannel pc a channelId msg
  else
    match w.openChannel pc a channelId with
    | (some _, w) => w.writeOnChannel pc a channelId msg
    | (none, w) => (none, w)

def closeChannelStream (w : Writer) (channelId : UInt64) : Writer :=
  match w.channelStreams.get? channelId with
  | none => w
  | some i => { w with
      unis := w.unis.modify i SendStream.finish
      channelStreams := w.channelStreams.remove channelId }

def sendFrameTileDatagrams (w : Writer) (a : Attempt) (tile : FrameTile) :
    Option SentFrame × Writer :=
  match a.maxDatagramSize with
  | none => (none, w)
  | some maxDatagramSize =>
    match frameTileDatagrams dpc tile tile.id w.frameSeq maxDatagramSize with
    | .error _ => (none, w)
    | .ok datagrams =>
      if datagrams.length ≤ a.datagramsTaken then
        (some { tile, channelId := tile.id, frameSeq := w.frameSeq, maxDatagramSize },
          { w with datagrams := w.datagrams ++ datagrams })
      else (none, { w with datagrams := w.datagrams ++ datagrams.take a.datagramsTaken })

/-- A failure here ends the task. -/
def writeMain (w : Writer) (a : Attempt) (msg : Message) : Outcome × Writer :=
  match w.send.writeFrame pc a.main msg with
  | (true, s) => (.stream .main, { w with send := s })
  | (false, s) => (.failed, { w with send := s, disconnected := true })

def writeReliable (w : Writer) (a : Attempt) (channelId : UInt64) (msg : Message) :
    Outcome × Writer :=
  match w.writeChannelFrame pc a channelId msg with
  | (some i, w) => (.stream (.channel i), w)
  | (none, w) => w.writeMain pc a msg

/-- One turn of the loop. -/
def handle (w : Writer) (a : Attempt) : Message → Outcome × Writer
  | .frameTile tile =>
    match { w with frameSeq := w.frameSeq + 1 }.sendFrameTileDatagrams dpc a tile with
    | (some frame, w) => (.datagrams frame, w)
    | (none, w) => w.writeReliable pc a tile.id (.frameTile tile)
  | .windowEvent event =>
    let channelId := windowEventChannelId event
    match w.writeReliable pc a channelId (.windowEvent event) with
    | (.failed, w) => (.failed, w)
    | (outcome, w) =>
      (outcome, if event.isDestroyed then w.closeChannelStream channelId else w)
  | other => w.writeMain pc a other

end Code
end Writer

/-! ## What the client reads off a stream -/

section Reader

variable (pc : Postcard Message)

/-- `read_channel_stream`, with the bytes that have come. -/
def channelMessages (bs : Bytes) : List Message :=
  match Client.readPrelude Source.bytes bs with
  | (.error _, _) => []
  | (.ok _, rest) =>
    match (frameReader pc).read rest with
    | some (.dataPlaneChannel _, rest) => (frameReader pc).items rest
    | _ => []

def StreamId.messages : StreamId → Bytes → List Message
  | .main => (frameReader pc).items
  | .channel _ => channelMessages pc

variable {pc} {bs : Bytes}

theorem channelMessages_of_short (h : ∀ more, bs ≠ prelude ++ more) : channelMessages pc bs = [] := by
  rw [channelMessages]
  rcases hread : Client.readPrelude Source.bytes bs with ⟨_ | ver, rest⟩
  · rfl
  · exact absurd (readPreludeWith_ok_iff.1 hread).2 (h rest)

theorem channelMessages_prelude (bs : Bytes) : channelMessages pc (prelude ++ bs) =
    match (frameReader pc).read bs with
    | some (.dataPlaneChannel _, rest) => (frameReader pc).items rest
    | _ => [] := by
  have hread : Client.readPrelude Source.bytes (prelude ++ bs) = (.ok protocolVersion, bs) :=
    readPreludeWith_ok_iff.2 ⟨rfl, rfl⟩
  rw [channelMessages, hread]

theorem channelMessages_intro {channel : DataPlaneChannel} {header : Bytes}
    (h : encodeFrame pc (.dataPlaneChannel channel) = .ok header) (more : Bytes) :
    channelMessages pc (prelude ++ header ++ more) = (frameReader pc).items more := by
  have hread : (frameReader pc).read (header ++ more) = some (.dataPlaneChannel channel, more) := by
    simpa using (frameReader pc).read_append more (encodes_frame h)
  rw [List.append_assoc, channelMessages_prelude, hread]

theorem channelMessages_prefix (bs more : Bytes) :
    channelMessages pc bs <+: channelMessages pc (bs ++ more) := by
  by_cases hshort : ∀ rest, bs ≠ prelude ++ rest
  · rw [channelMessages_of_short hshort]
    exact List.nil_prefix
  · simp only [ne_eq, not_forall, not_not] at hshort
    obtain ⟨rest, rfl⟩ := hshort
    rw [List.append_assoc, channelMessages_prelude, channelMessages_prelude]
    cases hread : (frameReader pc).read rest with
    | none => exact List.nil_prefix
    | some found =>
      obtain ⟨msg, rest⟩ := found
      rw [(frameReader pc).read_append more hread]
      cases msg with
      | dataPlaneChannel channel => exact ItemReader.items_prefix rest more
      | _ => exact List.nil_prefix

variable (pc) in
theorem StreamId.messages_prefix (id : StreamId) (bs more : Bytes) :
    id.messages pc bs <+: id.messages pc (bs ++ more) := by
  cases id with
  | main => exact ItemReader.items_prefix bs more
  | channel i => exact channelMessages_prefix bs more

variable (pc) in
/-- The bytes end with a whole frame: what follows is read as frames. -/
def StreamId.Whole (id : StreamId) (bs : Bytes) : Prop :=
  ∀ more, id.messages pc (bs ++ more) = id.messages pc bs ++ (frameReader pc).items more

theorem StreamId.Whole.frame {id : StreamId} {msg : Message} {frame : Bytes} (h : id.Whole pc bs)
    (hframe : encodeFrame pc msg = .ok frame) :
    id.messages pc (bs ++ frame) = id.messages pc bs ++ [msg] ∧ id.Whole pc (bs ++ frame) := by
  have hone : id.messages pc (bs ++ frame) = id.messages pc bs ++ [msg] := by
    rw [h, ← List.append_nil frame, (encodes_frame hframe).items_append, ItemReader.items_nil]
  refine ⟨hone, fun more => ?_⟩
  rw [List.append_assoc, h, (encodes_frame hframe).items_append, hone, List.append_assoc]
  rfl

theorem StreamId.Whole.cut {id : StreamId} {msg : Message} {frame : Bytes} (h : id.Whole pc bs)
    (hframe : encodeFrame pc msg = .ok frame) (n : Nat) :
    id.messages pc (bs ++ frame.dropLast.take n) = id.messages pc bs := by
  have hlen := encodeFrame_length hframe
  have hcut : (frame.dropLast.take n) <+: frame :=
    (List.take_prefix _ _).trans (List.dropLast_prefix _)
  have hread := (isFrame_encodeFrame hframe).read_cut hcut (by simp; omega)
  rw [h, ItemReader.items_of_none hread, List.append_nil]

end Reader

/-! ## One turn -/

/-- What a message that had the outcome adds to a stream. -/
def Outcome.added (msg : Message) : Outcome → StreamId → List Message
  | .stream on, id => if id = on then [msg] else []
  | _, _ => []

def Outcome.streamed (msg : Message) : Outcome → Option (Message × StreamId)
  | .stream id => some (msg, id)
  | _ => none

def Outcome.frame : Outcome → Option SentFrame
  | .datagrams frame => some frame
  | _ => none

/-- The stream begins with the channel's name. -/
def Introduces (pc : Postcard Message) (channelId : UInt64) (bs : Bytes) : Prop :=
  ∃ header more, encodeFrame pc (.dataPlaneChannel { channelId, purpose := .windowReliable }) =
    .ok header ∧ bs = prelude ++ header ++ more

/-- Streams can be opened and take what is written. Datagrams may fail. -/
structure Attempt.Reliable (a : Attempt) : Prop where
  opens : a.opens = true
  magic : a.magic = .all
  version : a.version = .all
  header : a.header = .all
  channel : a.channel = .all

/-- The frames that name the channels are not too big. -/
def HeadersFit (pc : Postcard Message) : Prop :=
  ∀ channelId, ∃ header,
    encodeFrame pc (.dataPlaneChannel { channelId, purpose := .windowReliable }) = .ok header

/-- The window that a message is about. -/
def Message.channelId : Message → Option UInt64
  | .frameTile tile => some tile.id
  | .windowEvent event => some (windowEventChannelId event)
  | _ => none

/-- The message says that the window is gone. -/
def Message.destroys (msg : Message) (c : UInt64) : Prop := msg = .windowEvent (.destroyed c)

instance (msg : Message) (c : UInt64) : Decidable (msg.destroys c) :=
  inferInstanceAs (Decidable (_ = _))

theorem destroys_windowEvent {event : WindowEvent} :
    (Message.windowEvent event).destroys (windowEventChannelId event) ↔ event.isDestroyed = true := by
  cases event <;> simp [Message.destroys, windowEventChannelId, WindowEvent.isDestroyed]

theorem Introduces.append {pc : Postcard Message} {c : UInt64} {bs : Bytes}
    (h : Introduces pc c bs) (more : Bytes) : Introduces pc c (bs ++ more) := by
  obtain ⟨header, rest, hheader, rfl⟩ := h
  exact ⟨header, rest ++ more, hheader, by simp [List.append_assoc]⟩

namespace Writer

def stream (w : Writer) : StreamId → Bytes
  | .main => w.send.bytes
  | .channel i => (w.unis[i]?.map SendStream.bytes).getD []

def messages (pc : Postcard Message) (w : Writer) (id : StreamId) : List Message :=
  id.messages pc (w.stream id)

structure Sound (pc : Postcard Message) (w : Writer) : Prop where
  main : w.disconnected = false → StreamId.main.Whole pc w.send.bytes
  kept : ∀ {c i}, w.channelStreams.get? c = some i → ∃ s, w.unis[i]? = some s ∧
    s.finished = false ∧ (StreamId.channel i).Whole pc s.bytes ∧ Introduces pc c s.bytes
  own : ∀ {c c' i}, w.channelStreams.get? c = some i → w.channelStreams.get? c' = some i → c = c'
  left : ∀ {i s}, w.unis[i]? = some s → s.finished = false →
    ∃ c, w.channelStreams.get? c = some i

/-- The streams only grow, and the client can read so much more off them. -/
structure Adds (pc : Postcard Message) (w w' : Writer) (new : StreamId → List Message) : Prop where
  grows : ∀ id, w.stream id <+: w'.stream id
  reads : ∀ id, w'.messages pc id = w.messages pc id ++ new id

section Turn

variable {pc : Postcard Message} {dpc : Postcard DataPlaneDatagram} {w w' w'' : Writer} {a : Attempt}
  {c : UInt64} {msg : Message}

theorem sound_start : start.Sound pc := by
  refine ⟨fun _ more => ?_, ?_, ?_, ?_⟩
  · exact (List.nil_append _).symm
  · intro c i h
    cases h
  · intro c c' i h
    cases h
  · intro i s h
    cases h

theorem Adds.refl (hw : ∀ id, w'.stream id = w.stream id) : Adds pc w w' fun _ => [] := by
  refine ⟨fun id => ?_, fun id => ?_⟩
  · rw [hw]
  · rw [messages, messages, hw, List.append_nil]

theorem Adds.trans {new new' : StreamId → List Message} (h : Adds pc w w' new)
    (h' : Adds pc w' w'' new') : Adds pc w w'' fun id => new id ++ new' id := by
  refine ⟨fun id => (h.grows id).trans (h'.grows id), fun id => ?_⟩
  rw [h'.reads, h.reads, List.append_assoc]

theorem Adds.silent_trans {new : StreamId → List Message} (h : Adds pc w w' fun _ => [])
    (h' : Adds pc w' w'' new) : Adds pc w w'' new := by
  have := h.trans h'
  simpa using this

theorem Adds.trans_silent {new : StreamId → List Message} (h : Adds pc w w' new)
    (h' : Adds pc w' w'' fun _ => []) : Adds pc w w'' new := by
  have := h.trans h'
  simpa using this

/-- A stream that was opened and from which nothing can be read yet. -/
theorem adds_concat {s : SendStream} (hs : channelMessages pc s.bytes = [])
    (hsend : w'.send = w.send) (hunis : w'.unis = w.unis ++ [s]) :
    Adds pc w w' fun _ => [] := by
  have hcases : ∀ id, w'.stream id = w.stream id ∨ w.stream id = [] ∧ w'.stream id = s.bytes ∧
      id.messages pc s.bytes = [] := by
    intro id
    cases id with
    | main => exact .inl (by rw [stream, stream, hsend])
    | channel i =>
      rw [stream, stream, hunis]
      rcases Nat.lt_trichotomy i w.unis.length with h | rfl | h
      · exact .inl (by rw [List.getElem?_append_left h])
      · refine .inr ⟨?_, ?_, hs⟩ <;> simp
      · refine .inl ?_
        rw [List.getElem?_eq_none (by simp; omega), List.getElem?_eq_none (by omega)]
  refine ⟨fun id => ?_, fun id => ?_⟩
  · obtain h | ⟨h, -, -⟩ := hcases id
    · rw [h]
    · rw [h]
      exact List.nil_prefix
  · rw [messages, messages, List.append_nil]
    obtain h | ⟨h, h', hnone⟩ := hcases id
    · rw [h]
    · rw [h, h', hnone]
      cases id <;> rfl

/-- Some bytes on one of the streams. -/
theorem adds_set {i : Nat} {s s' : SendStream} {new : List Message} (hi : w.unis[i]? = some s)
    (hgrows : s.bytes <+: s'.bytes)
    (hreads : channelMessages pc s'.bytes = channelMessages pc s.bytes ++ new)
    (hsend : w'.send = w.send) (hunis : w'.unis = w.unis.set i s') :
    Adds pc w w' fun id => if id = .channel i then new else [] := by
  have hlt : i < w.unis.length := (List.getElem?_eq_some_iff.1 hi).1
  have hcases : ∀ id, id ≠ .channel i → w'.stream id = w.stream id := by
    intro id hne
    cases id with
    | main => rw [stream, stream, hsend]
    | channel j =>
      have hij : i ≠ j := fun h => hne (by rw [h])
      rw [stream, stream, hunis, List.getElem?_set_ne hij]
  have hold : w.stream (.channel i) = s.bytes := by rw [stream, hi]; rfl
  have hnew : w'.stream (.channel i) = s'.bytes := by
    rw [stream, hunis, List.getElem?_set_self hlt]; rfl
  refine ⟨fun id => ?_, fun id => ?_⟩
  · by_cases hid : id = .channel i
    · rw [hid, hold, hnew]
      exact hgrows
    · rw [hcases id hid]
  · by_cases hid : id = .channel i
    · rw [hid, if_pos rfl, messages, messages, hold, hnew]
      exact hreads
    · rw [if_neg hid, messages, messages, hcases id hid, List.append_nil]

theorem frameReader_read_nil : (frameReader pc).read [] = none := by
  cases hread : (frameReader pc).read [] with
  | none => rfl
  | some found => exact absurd ((frameReader pc).read_lt hread) (Nat.not_lt_zero _)

/-- A new stream is introduced, or nothing can be read from it. -/
theorem introduce_spec {ok : Bool} {s : SendStream} (h : introduce pc a c = (ok, s)) :
    channelMessages pc s.bytes = [] ∧ (ok = true →
      s.finished = false ∧ Introduces pc c s.bytes ∧ ∀ i, (StreamId.channel i).Whole pc s.bytes) := by
  have hshort : ∀ n (bs : Bytes), bs.length < 6 → channelMessages pc (bs.take n) = [] := by
    intro n bs hlt
    refine channelMessages_of_short fun more heq => ?_
    have := congrArg List.length heq
    simp [prelude, magic] at this
    omega
  unfold introduce at h
  cases hmagic : a.magic with
  | cut n =>
    rw [hmagic] at h
    cases h
    refine ⟨?_, by simp⟩
    exact hshort n magic.dropLast (by decide)
  | all =>
    cases hversion : a.version with
    | cut n =>
      rw [hmagic, hversion] at h
      cases h
      refine ⟨?_, by simp⟩
      have hcut := hshort (magic.length + n) (magic ++ (u16ToBe protocolVersion).dropLast) (by decide)
      rwa [List.take_length_add_append] at hcut
    | all =>
      rw [hmagic, hversion] at h
      simp only [SendStream.writeAll, SendStream.writeFrame, SendStream.opened, if_true,
        List.nil_append] at h
      cases hheader : encodeFrame pc (.dataPlaneChannel { channelId := c, purpose := .windowReliable }) with
      | error e =>
        rw [hheader] at h
        cases h
        refine ⟨?_, by simp⟩
        show channelMessages pc prelude = []
        rw [← List.append_nil prelude, channelMessages_prelude, frameReader_read_nil]
      | ok header =>
        rw [hheader] at h
        cases hh : a.header with
        | all =>
          rw [hh] at h
          cases h
          have hmore : ∀ more, channelMessages pc (prelude ++ header ++ more) =
              (frameReader pc).items more := channelMessages_intro hheader
          have hnone : channelMessages pc (prelude ++ header) = [] := by
            have := hmore []
            rwa [List.append_nil] at this
          refine ⟨hnone, fun _ => ⟨rfl, ⟨header, [], hheader, by simp [prelude]⟩, fun i more => ?_⟩⟩
          show channelMessages pc (prelude ++ header ++ more) =
            channelMessages pc (prelude ++ header) ++ _
          rw [hmore, hnone]
          rfl
        | cut n =>
          rw [hh] at h
          cases h
          refine ⟨?_, by simp⟩
          have hlen := encodeFrame_length hheader
          have hcut := (isFrame_encodeFrame hheader).read_cut
            ((List.take_prefix n _).trans (List.dropLast_prefix header)) (by simp; omega)
          show channelMessages pc (prelude ++ header.dropLast.take n) = []
          rw [channelMessages_prelude, hcut]

theorem openChannel_spec (hw : w.Sound pc) (hc : w.channelStreams.get? c = none)
    {found : Option Nat} (h : w.openChannel pc a c = (found, w')) :
    w'.Sound pc ∧ Adds pc w w' (fun _ => []) ∧ w'.disconnected = w.disconnected := by
  unfold openChannel at h
  split at h
  · split at h
    · rename_i s hintro
      cases h
      obtain ⟨hnone, hok⟩ := introduce_spec hintro
      obtain ⟨hopen, hintroduces, hwhole⟩ := hok rfl
      refine ⟨⟨hw.main, ?_, ?_, ?_⟩, adds_concat hnone rfl rfl, rfl⟩
      · intro c' i hi
        rw [Table.get?_insert] at hi
        split at hi
        · rename_i hcc
          cases hi
          exact ⟨s, by simp, hopen, hwhole _, hcc ▸ hintroduces⟩
        · obtain ⟨s', hs', hrest⟩ := hw.kept hi
          exact ⟨s', by rw [List.getElem?_append_left (List.getElem?_eq_some_iff.1 hs').1, hs'], hrest⟩
      · intro c₁ c₂ i h₁ h₂
        rw [Table.get?_insert] at h₁ h₂
        have hfresh : ∀ {c'}, w.channelStreams.get? c' = some w.unis.length → False := by
          intro c' hc'
          obtain ⟨s', hs', -⟩ := hw.kept hc'
          exact absurd (List.getElem?_eq_some_iff.1 hs').1 (Nat.lt_irrefl _)
        split at h₁ <;> split at h₂
        · rename_i e₁ e₂
          rw [e₁, e₂]
        · cases h₁
          exact absurd h₂ hfresh
        · cases h₂
          exact absurd h₁ hfresh
        · exact hw.own h₁ h₂
      · intro i s' hs' hlive
        rcases Nat.lt_or_ge i w.unis.length with hlt | hge
        · rw [List.getElem?_append_left hlt] at hs'
          obtain ⟨c', hc'⟩ := hw.left hs' hlive
          refine ⟨c', ?_⟩
          have hne : c' ≠ c := by
            rintro rfl
            rw [hc] at hc'
            cases hc'
          simp [hne, hc']
        · have := (List.getElem?_eq_some_iff.1 hs').1
          rw [List.length_append, List.length_singleton] at this
          exact ⟨c, by simp; omega⟩
    · rename_i s hintro
      cases h
      obtain ⟨hnone, -⟩ := introduce_spec hintro
      refine ⟨⟨hw.main, ?_, hw.own, ?_⟩, adds_concat (s := s.finish) hnone rfl rfl, rfl⟩
      · intro c' i hi
        obtain ⟨s', hs', hrest⟩ := hw.kept hi
        exact ⟨s', by rw [List.getElem?_append_left (List.getElem?_eq_some_iff.1 hs').1, hs'], hrest⟩
      · intro i s' hs' hlive
        rcases Nat.lt_or_ge i w.unis.length with hlt | hge
        · rw [List.getElem?_append_left hlt] at hs'
          exact hw.left hs' hlive
        · rw [List.getElem?_append_right hge, List.getElem?_singleton] at hs'
          split at hs'
          · cases hs'
            cases hlive
          · cases hs'
  · cases h
    exact ⟨hw, .refl fun _ => rfl, rfl⟩

/-- The writer with one of its streams changed. -/
theorem Sound.set (hw : w.Sound pc) {i : Nat} {s : SendStream} (hi : w.channelStreams.get? c = some i)
    (hopen : s.finished = false) (hwhole : (StreamId.channel i).Whole pc s.bytes)
    (hintro : Introduces pc c s.bytes) : Sound pc { w with unis := w.unis.set i s } := by
  obtain ⟨s₀, hs₀, -⟩ := hw.kept hi
  have hlt := (List.getElem?_eq_some_iff.1 hs₀).1
  refine ⟨hw.main, ?_, hw.own, ?_⟩
  · intro c' j hj
    by_cases hij : i = j
    · subst hij
      obtain rfl := hw.own hi hj
      exact ⟨s, List.getElem?_set_self hlt, hopen, hwhole, hintro⟩
    · obtain ⟨s', hs', hrest⟩ := hw.kept hj
      exact ⟨s', by rw [← hs']; exact List.getElem?_set_ne hij, hrest⟩
  · intro j s' hs' hlive
    by_cases hij : i = j
    · exact ⟨c, hij ▸ hi⟩
    · exact hw.left (by rw [← hs']; exact (List.getElem?_set_ne hij).symm) hlive

/-- The writer with one of its streams finished and forgotten. -/
theorem Sound.drop (hw : w.Sound pc) {i : Nat} {s : SendStream}
    (hi : w.channelStreams.get? c = some i) (hfinished : s.finished = true) :
    Sound pc { w with unis := w.unis.set i s, channelStreams := w.channelStreams.remove c } := by
  have hother : ∀ {c' j}, (w.channelStreams.remove c).get? c' = some j →
      w.channelStreams.get? c' = some j ∧ i ≠ j := by
    intro c' j hj
    rw [Table.get?_remove] at hj
    split at hj
    · cases hj
    · rename_i hne
      refine ⟨hj, ?_⟩
      rintro rfl
      exact hne (hw.own hj hi)
  refine ⟨hw.main, ?_, ?_, ?_⟩
  · intro c' j hj
    obtain ⟨hj, hij⟩ := hother hj
    obtain ⟨s', hs', hrest⟩ := hw.kept hj
    exact ⟨s', by rw [← hs']; exact List.getElem?_set_ne hij, hrest⟩
  · intro c₁ c₂ j h₁ h₂
    exact hw.own (hother h₁).1 (hother h₂).1
  · intro j s' hs' hlive
    by_cases hij : i = j
    · subst hij
      obtain ⟨s₀, hs₀, -⟩ := hw.kept hi
      rw [List.getElem?_set_self (List.getElem?_eq_some_iff.1 hs₀).1] at hs'
      cases hs'
      rw [hfinished] at hlive
      cases hlive
    · obtain ⟨c', hc'⟩ := hw.left (by rw [← hs']; exact (List.getElem?_set_ne hij).symm) hlive
      refine ⟨c', ?_⟩
      have hne : c' ≠ c := by
        rintro rfl
        rw [hi] at hc'
        cases hc'
        exact hij rfl
      rw [Table.get?_remove, if_neg hne, hc']

/-- What a write of a frame does to the bytes of a stream. -/
theorem writeFrame_spec {s s' : SendStream} {ok : Bool} {taken : Taken} {id : StreamId}
    (hwhole : id.Whole pc s.bytes) (h : s.writeFrame pc taken msg = (ok, s')) :
    s.bytes <+: s'.bytes ∧ s'.finished = s.finished ∧
      id.messages pc s'.bytes = id.messages pc s.bytes ++ (if ok then [msg] else []) ∧
      (ok = true → id.Whole pc s'.bytes) := by
  unfold SendStream.writeFrame at h
  cases hframe : encodeFrame pc msg with
  | error e =>
    rw [hframe] at h
    cases h
    simp
  | ok frame =>
    rw [hframe] at h
    cases taken with
    | all =>
      cases h
      obtain ⟨hone, hwhole⟩ := hwhole.frame hframe
      exact ⟨List.prefix_append _ _, rfl, hone, fun _ => hwhole⟩
    | cut n =>
      cases h
      have hnone := hwhole.cut hframe n
      exact ⟨List.prefix_append _ _, rfl, by simpa using hnone, by simp⟩

/-- The stream that a write on a channel went to. -/
def addedOn (msg : Message) (found : Option Nat) (id : StreamId) : List Message :=
  match found with
  | some i => if id = .channel i then [msg] else []
  | none => []

theorem writeOnChannel_spec (hw : w.Sound pc) {found : Option Nat}
    (h : w.writeOnChannel pc a c msg = (found, w')) :
    w'.Sound pc ∧ Adds pc w w' (addedOn msg found) ∧ w'.disconnected = w.disconnected := by
  unfold writeOnChannel at h
  split at h
  · cases h
    exact ⟨hw, .refl fun _ => rfl, rfl⟩
  · rename_i i hi
    obtain ⟨s, hs, hopen, hwhole, hintro⟩ := hw.kept hi
    simp only [hs] at h
    split at h
    · rename_i s' hwrite
      cases h
      obtain ⟨hgrows, hfin, hreads, hwhole'⟩ := writeFrame_spec hwhole hwrite
      obtain ⟨more, hmore⟩ := hgrows
      refine ⟨hw.set hi (by rw [hfin, hopen]) (hwhole' rfl) (hmore ▸ hintro.append more), ?_, rfl⟩
      exact adds_set hs ⟨more, hmore⟩ hreads rfl rfl
    · rename_i s' hwrite
      cases h
      obtain ⟨hgrows, -, hreads, -⟩ := writeFrame_spec hwhole hwrite
      refine ⟨hw.drop hi rfl, ?_, rfl⟩
      have hadds : Adds pc w { w with
          unis := w.unis.set i s'.finish
          channelStreams := w.channelStreams.remove c } _ :=
        adds_set hs (show s.bytes <+: s'.finish.bytes from hgrows) hreads rfl rfl
      simp only [Bool.false_eq_true, if_false, ite_self] at hadds
      exact hadds

theorem writeChannelFrame_spec (hw : w.Sound pc) {found : Option Nat}
    (h : w.writeChannelFrame pc a c msg = (found, w')) :
    w'.Sound pc ∧ Adds pc w w' (addedOn msg found) ∧ w'.disconnected = w.disconnected := by
  unfold writeChannelFrame at h
  split at h
  · exact writeOnChannel_spec hw h
  · rename_i hnew
    have hc : w.channelStreams.get? c = none := by
      simpa [Table.contains] using hnew
    split at h
    · rename_i i w₁ hopen
      obtain ⟨hw₁, hadds, hdis⟩ := openChannel_spec hw hc hopen
      obtain ⟨hw', hadds', hdis'⟩ := writeOnChannel_spec hw₁ h
      exact ⟨hw', hadds.silent_trans hadds', hdis'.trans hdis⟩
    · rename_i w₁ hopen
      cases h
      exact openChannel_spec hw hc hopen

theorem writeMain_spec (hw : w.Sound pc) (hd : w.disconnected = false) {outcome : Outcome}
    (h : w.writeMain pc a msg = (outcome, w')) :
    w'.Sound pc ∧ Adds pc w w' (outcome.added msg) ∧
      (w'.disconnected = true ↔ outcome = .failed) := by
  have hadds : ∀ {ok s'}, w.send.writeFrame pc a.main msg = (ok, s') → w'.send = s' →
      w'.unis = w.unis →
      Adds pc w w' fun id => if id = .main then (if ok then [msg] else []) else [] := by
    intro ok s' hwrite hsend hunis
    obtain ⟨hgrows, -, hreads, -⟩ := writeFrame_spec (hw.main hd) hwrite
    refine ⟨fun id => ?_, fun id => ?_⟩ <;> cases id with
    | main => simpa [stream, messages, hsend] using ‹_›
    | channel i => simp [stream, messages, hunis]
  unfold writeMain at h
  split at h
  · rename_i s' hwrite
    cases h
    obtain ⟨-, -, -, hwhole⟩ := writeFrame_spec (hw.main hd) hwrite
    refine ⟨⟨fun _ => hwhole rfl, hw.kept, hw.own, hw.left⟩, hadds hwrite rfl rfl, by simp [hd]⟩
  · rename_i s' hwrite
    cases h
    refine ⟨⟨by simp, hw.kept, hw.own, hw.left⟩, ?_, by simp⟩
    have := hadds hwrite rfl rfl
    simp only [Bool.false_eq_true, if_false, ite_self] at this
    exact this

theorem writeReliable_spec (hw : w.Sound pc) (hd : w.disconnected = false) {outcome : Outcome}
    (h : w.writeReliable pc a c msg = (outcome, w')) :
    w'.Sound pc ∧ Adds pc w w' (outcome.added msg) ∧
      (w'.disconnected = true ↔ outcome = .failed) := by
  unfold writeReliable at h
  split at h
  · rename_i i w₁ hchannel
    cases h
    obtain ⟨hw', hadds, hdis⟩ := writeChannelFrame_spec hw hchannel
    exact ⟨hw', hadds, by rw [hdis, hd]; simp⟩
  · rename_i w₁ hchannel
    obtain ⟨hw₁, hadds, hdis⟩ := writeChannelFrame_spec hw hchannel
    obtain ⟨hw', hadds', hdis'⟩ := writeMain_spec hw₁ (hdis.trans hd) h
    exact ⟨hw', Adds.silent_trans hadds hadds', hdis'⟩

theorem closeChannelStream_spec (hw : w.Sound pc) (c : UInt64) :
    (w.closeChannelStream c).Sound pc ∧ Adds pc w (w.closeChannelStream c) (fun _ => []) ∧
      (w.closeChannelStream c).disconnected = w.disconnected := by
  unfold closeChannelStream
  split
  · exact ⟨hw, .refl fun _ => rfl, rfl⟩
  · rename_i i hi
    obtain ⟨s, hs, -⟩ := hw.kept hi
    have hmodify : w.unis.modify i SendStream.finish = w.unis.set i s.finish := by
      rw [List.modify_eq_set_getElem?, hs]
      rfl
    rw [hmodify]
    refine ⟨hw.drop hi rfl, ?_, rfl⟩
    have hadds : Adds pc w { w with
        unis := w.unis.set i s.finish
        channelStreams := w.channelStreams.remove c } fun id => if id = .channel i then [] else [] :=
      adds_set hs (show s.bytes <+: s.finish.bytes from List.prefix_refl _) (List.append_nil _).symm
        rfl rfl
    simpa using hadds

theorem sendFrameTileDatagrams_spec (tile : FrameTile) {frame : Option SentFrame}
    (h : w.sendFrameTileDatagrams dpc a tile = (frame, w')) :
    ∃ datagrams, w' = { w with datagrams } := by
  unfold sendFrameTileDatagrams at h
  split at h
  · cases h
    exact ⟨_, rfl⟩
  · split at h
    · cases h
      exact ⟨_, rfl⟩
    · split at h <;> cases h <;> exact ⟨_, rfl⟩

theorem Sound.of_same (hw : w.Sound pc) (hsend : w'.send = w.send) (hunis : w'.unis = w.unis)
    (htable : w'.channelStreams = w.channelStreams) (hdis : w'.disconnected = w.disconnected) :
    w'.Sound pc ∧ Adds pc w w' fun _ => [] := by
  refine ⟨⟨?_, ?_, ?_, ?_⟩, .refl fun id => ?_⟩
  · rw [hsend, hdis]
    exact hw.main
  · rw [htable, hunis]
    exact hw.kept
  · rw [htable]
    exact hw.own
  · rw [htable, hunis]
    exact hw.left
  · cases id <;> simp [stream, hsend, hunis]

/-- **One turn.** A message is added to the stream of its outcome, and nothing to the others. The task
ends exactly if it went nowhere. -/
theorem handle_adds (hw : w.Sound pc) (hd : w.disconnected = false) {outcome : Outcome}
    (h : w.handle pc dpc a msg = (outcome, w')) :
    w'.Sound pc ∧ Adds pc w w' (outcome.added msg) ∧
      (w'.disconnected = true ↔ outcome = .failed) := by
  unfold handle at h
  split at h
  · rename_i tile
    split at h
    · rename_i frame w₁ hsent
      cases h
      obtain ⟨datagrams, rfl⟩ := sendFrameTileDatagrams_spec tile hsent
      have hsame : Sound pc { w with frameSeq := w.frameSeq + 1, datagrams } ∧ Adds pc w _ _ :=
        hw.of_same rfl rfl rfl rfl
      obtain ⟨hw', hadds⟩ := hsame
      exact ⟨hw', hadds, by simp [hd]⟩
    · rename_i w₁ hsent
      obtain ⟨datagrams, rfl⟩ := sendFrameTileDatagrams_spec tile hsent
      have hsame : Sound pc { w with frameSeq := w.frameSeq + 1, datagrams } ∧ Adds pc w _ _ :=
        hw.of_same rfl rfl rfl rfl
      obtain ⟨hw₁, hadds⟩ := hsame
      obtain ⟨hw', hadds', hdis⟩ := writeReliable_spec hw₁ hd h
      exact ⟨hw', Adds.silent_trans hadds hadds', hdis⟩
  · rename_i event
    simp only at h
    split at h
    · rename_i w₁ hwrite
      cases h
      exact writeReliable_spec hw hd hwrite
    · rename_i outcome' w₁ hne hwrite
      cases h
      obtain ⟨hw₁, hadds, hdis⟩ := writeReliable_spec hw hd hwrite
      split
      · obtain ⟨hw', hadds', hdis'⟩ := closeChannelStream_spec hw₁ (windowEventChannelId event)
        exact ⟨hw', Adds.trans_silent hadds hadds', by rw [hdis', hdis]⟩
      · exact ⟨hw₁, hadds, hdis⟩
  · exact writeMain_spec hw hd h

end Turn

end Writer

end VBox
