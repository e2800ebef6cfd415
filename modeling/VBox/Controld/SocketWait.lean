import Mathlib.Algebra.Group.Nat.Defs
import Mathlib.Data.List.Induction

/-!
# Controld.SocketWait

How the daemon waits for a Wayland socket on Linux (`wait_socket` in `crates/controld/src/state.rs`
and `wait_socket_inotify` in `socket_wait.rs`): look, watch the runtime directory with inotify, look
again, and then wait for events that name the socket.

The waiter and the other processes take turns in any order. What the kernel answers is part of an
action; from the moment the directory is watched it queues an event for every name that appears.

* `scanNext`: one event of the buffer, found in the bytes that `read` returned.
* `step`: one action. `Pc` says where the waiter is.
* `Inv`: once the second look has failed, a socket that is there has an event that was not looked at.
* `no_lost_wakeup`: the waiter never blocks without an event while the socket is there.
-/

namespace VBox.Controld.SocketWait

abbrev Name := List UInt8

/-! ## The buffer of events -/

/-- The size of `inotify_event`, without its name. -/
def hdr : Nat := 16

/-- A read beyond the bytes that were returned, up to `stop`. -/
structure OutOfBounds where
  stop : Nat
  deriving DecidableEq

/-- The bytes from `start` to `stop`. -/
def slice (bytes : List UInt8) (start stop : Nat) : Except OutOfBounds (List UInt8) :=
  if start ≤ stop ∧ stop ≤ bytes.length then .ok ((bytes.drop start).take (stop - start))
  else .error ⟨stop⟩

def le32 (n : Nat) : List UInt8 :=
  [.ofNat (n % 256), .ofNat (n / 256 % 256), .ofNat (n / 65536 % 256), .ofNat (n / 16777216 % 256)]

def ofLe32 (bytes : List UInt8) : Nat :=
  bytes.foldr (fun b n => b.toNat + 256 * n) 0

/-- `ev.len`, the last field of the header. -/
def evLen (ev : List UInt8) : Nat := ofLe32 (ev.drop 12)

/-- The name of the event at `off` and where the next one starts; none ends the loop. -/
def scanNext (bytes : List UInt8) (off : Nat) : Except OutOfBounds (Option (Name × Nat)) :=
  if off + hdr ≤ bytes.length then do
    let ev ← slice bytes off (off + hdr)
    let nameStart := off + hdr
    let nameEnd := nameStart + evLen ev
    if bytes.length < nameEnd then return none
    let nameRaw ← slice bytes nameStart nameEnd
    return some (nameRaw.takeWhile (· ≠ 0), nameEnd)
  else .ok none

/-- The loop over one buffer: whether it returns from the function. `found` answers whether the path
exists when the event that ends at an offset is looked at. -/
def scanLoop (bytes : List UInt8) (target : Name) (found : Nat → Bool) :
    Nat → Nat → Except OutOfBounds (Option Bool)
  | 0, _ => .ok none
  | fuel + 1, off => do
    match ← scanNext bytes off with
    | none => return some false
    | some (name, nameEnd) =>
      if name = target ∧ found nameEnd then return some true
      else scanLoop bytes target found fuel nameEnd

theorem slice_of_le {bytes : List UInt8} {start stop : Nat} (h : start ≤ stop)
    (hstop : stop ≤ bytes.length) :
    slice bytes start stop = .ok ((bytes.drop start).take (stop - start)) :=
  if_pos ⟨h, hstop⟩

/-- The end of the event at `off`, by the length in its header. -/
def nameEndAt (bytes : List UInt8) (off : Nat) : Nat :=
  off + hdr + evLen ((bytes.drop off).take hdr)

theorem scanNext_short {bytes : List UInt8} {off : Nat} (h : bytes.length < off + hdr) :
    scanNext bytes off = .ok none :=
  if_neg (Nat.not_le_of_lt h)

theorem slice_header {bytes : List UInt8} {off : Nat} (h : off + hdr ≤ bytes.length) :
    slice bytes off (off + hdr) = .ok ((bytes.drop off).take hdr) := by
  rw [slice_of_le (Nat.le_add_right off hdr) h, Nat.add_sub_cancel_left]

theorem scanNext_cut {bytes : List UInt8} {off : Nat} (h : off + hdr ≤ bytes.length)
    (hend : bytes.length < nameEndAt bytes off) : scanNext bytes off = .ok none := by
  rw [scanNext, if_pos h, slice_header h]
  rw [nameEndAt] at hend
  simp [hend, bind, Except.bind, pure, Except.pure]

theorem scanNext_event {bytes : List UInt8} {off : Nat}
    (hend : nameEndAt bytes off ≤ bytes.length) :
    scanNext bytes off = .ok (some ((((bytes.drop (off + hdr)).take
      (evLen ((bytes.drop off).take hdr))).takeWhile (· ≠ 0)), nameEndAt bytes off)) := by
  have h : off + hdr ≤ bytes.length := Nat.le_trans (Nat.le_add_right _ _) hend
  rw [nameEndAt] at hend ⊢
  rw [scanNext, if_pos h, slice_header h]
  simp only [bind, Except.bind, if_neg (Nat.not_lt_of_le hend),
    slice_of_le (Nat.le_add_right (off + hdr) _) hend, Nat.add_sub_cancel_left]
  rfl

/-- No read leaves the buffer, and the next event starts at least a header further on. -/
theorem scanNext_cases (bytes : List UInt8) (off : Nat) :
    scanNext bytes off = .ok none ∨ ∃ name nameEnd, scanNext bytes off = .ok (some (name, nameEnd)) ∧
      off + hdr ≤ nameEnd ∧ nameEnd ≤ bytes.length := by
  by_cases hhdr : off + hdr ≤ bytes.length
  · by_cases hend : bytes.length < nameEndAt bytes off
    · exact .inl (scanNext_cut hhdr hend)
    · have hle := Nat.le_of_not_lt hend
      exact .inr ⟨_, _, scanNext_event hle, Nat.le_add_right _ _, hle⟩
  · exact .inl (scanNext_short (Nat.lt_of_not_le hhdr))

/-- The loop ends with what it has read of the buffer, whatever the buffer holds. -/
theorem scanLoop_ends (bytes : List UInt8) (target : Name) (found : Nat → Bool) (off : Nat)
    (fuel : Nat) (hfuel : (bytes.length - off) / hdr < fuel) :
    ∃ r, scanLoop bytes target found fuel off = .ok (some r) := by
  induction fuel generalizing off with
  | zero => exact absurd hfuel (Nat.not_lt_zero _)
  | succ fuel ih =>
    rw [scanLoop]
    rcases scanNext_cases bytes off with hnext | ⟨name, nameEnd, hnext, hstart, hend⟩
    · rw [hnext]
      exact ⟨false, rfl⟩
    · rw [hnext]
      by_cases hfound : name = target ∧ found nameEnd
      · exact ⟨true, by simp [hfound, bind, Except.bind, pure, Except.pure]⟩
      · have hfuel' : (bytes.length - nameEnd) / hdr < fuel := by
          simp only [hdr] at *
          omega
        obtain ⟨r, hr⟩ := ih nameEnd hfuel'
        exact ⟨r, by simp [hfound, hr, bind, Except.bind]⟩

/-! ## What the kernel writes -/

/-- An event as `read` returns it. The name is padded with zeros; the kernel chooses how far. -/
structure Event where
  /-- `wd`, `mask` and `cookie`. -/
  head : List UInt8
  name : Name
  pad : Nat
  head_length : head.length = 12
  name_nonzero : 0 ∉ name
  len_lt : name.length + pad < 2 ^ 32

def Event.encode (e : Event) : List UInt8 :=
  e.head ++ le32 (e.name.length + e.pad) ++ (e.name ++ List.replicate e.pad 0)

def encode (events : List Event) : List UInt8 := events.flatMap Event.encode

theorem ofLe32_le32 {n : Nat} (h : n < 2 ^ 32) : ofLe32 (le32 n) = n := by
  simp only [ofLe32, le32, List.foldr_cons, List.foldr_nil, UInt8.toNat_ofNat']
  omega

theorem Event.length_header (e : Event) : (e.head ++ le32 (e.name.length + e.pad)).length = hdr := by
  rw [List.length_append, e.head_length]
  rfl

/-- An event that starts at `off` is read as it was written. -/
theorem scanNext_encode (e : Event) (before rest : List UInt8) :
    scanNext (before ++ (e.encode ++ rest)) before.length =
      .ok (some (e.name, before.length + e.encode.length)) := by
  have hheader : ((before ++ (e.encode ++ rest)).drop before.length).take hdr =
      e.head ++ le32 (e.name.length + e.pad) := by
    rw [List.drop_left, Event.encode, List.append_assoc, ← e.length_header, List.take_left]
  have hlen : evLen (((before ++ (e.encode ++ rest)).drop before.length).take hdr) =
      e.name.length + e.pad := by
    rw [hheader, evLen, ← e.head_length, List.drop_left, ofLe32_le32 e.len_lt]
  have hencode : e.encode.length = hdr + (e.name.length + e.pad) := by
    rw [Event.encode, List.length_append, e.length_header, List.length_append,
      List.length_replicate]
  have hend : nameEndAt (before ++ (e.encode ++ rest)) before.length =
      before.length + e.encode.length := by
    rw [nameEndAt, hlen, hencode, Nat.add_assoc]
  have hname : ((before ++ (e.encode ++ rest)).drop (before.length + hdr)).take
      (e.name.length + e.pad) = e.name ++ List.replicate e.pad 0 := by
    rw [← List.drop_drop, List.drop_left, Event.encode, List.append_assoc, ← e.length_header,
      List.drop_left]
    apply List.take_left'
    rw [List.length_append, List.length_replicate]
  rw [scanNext_event, hlen, hend, hname]
  · congr
    rw [List.takeWhile_append_of_pos]
    · cases e.pad <;> simp
    · intro b hb
      simpa using ne_of_mem_of_not_mem hb e.name_nonzero
  · rw [hend, List.length_append, List.length_append]
    omega

/-! ## The waiter among other processes -/

/-- A socket name has no `/`. -/
structure SocketName where
  name : Name
  noSlash : 47 ∉ name

/-- The directory itself or its parent, which are always there. -/
def SocketName.isDir (target : SocketName) : Bool :=
  target.name = [] ∨ target.name = [46] ∨ target.name = [46, 46]

/-- Where the waiter is in `wait_socket`: what it does next. -/
inductive Pc where
  /-- The first look. -/
  | start
  | inotifyInit
  | addWatch
  /-- The second look. -/
  | recheck
  /-- The top of the loop: is the time over? -/
  | deadline
  /-- About to block. -/
  | poll
  | read
  /-- In the buffer, at an event. -/
  | scan (bytes : List UInt8) (off : Nat)
  /-- An event has the name: the look that decides. Then the loop goes on at `nameEnd`. -/
  | matched (bytes : List UInt8) (nameEnd : Nat)
  /-- Without inotify: a look every 50 ms. -/
  | pollCheck
  | pollDeadline
  | done (ok : Bool)
  /-- A read outside the buffer. -/
  | fault
  deriving DecidableEq

structure Sys where
  /-- The names in the runtime directory. -/
  dir : List Name
  armed : Bool
  /-- The events that the kernel holds. -/
  queue : List Event
  pc : Pc

/-- `path.exists()` -/
def Sys.present (s : Sys) (target : SocketName) : Bool :=
  target.isDir || s.dir.contains target.name

inductive PollResult where
  | interrupted
  | failed
  | timeout
  | ready

inductive ReadResult where
  /-- There is no event. -/
  | wouldBlock
  | failed
  | eof
  /-- So many whole events. -/
  | events (count : Nat)

inductive Action where
  /-- Another process creates the name, or moves something there, over what there may be. -/
  | appear (e : Event)
  | remove (name : Name)
  /-- An event that does not tell of a new name. -/
  | other (e : Event)
  /-- A look at the path, wherever the waiter takes one next. -/
  | look
  | noRuntimeDir
  | inotifyInit (ok : Bool)
  | addWatch (ok : Bool)
  | deadline (expired : Bool)
  | poll (r : PollResult)
  | read (r : ReadResult)
  | scan

def Sys.emit (s : Sys) (e : Event) : List Event :=
  if s.armed then s.queue ++ [e] else s.queue

/-- What a look leads to. -/
def lookStep (target : SocketName) (s : Sys) : Pc :=
  let found := s.present target
  match s.pc with
  | .start => if found then .done true else .inotifyInit
  | .recheck => if found then .done true else .deadline
  | .matched bytes nameEnd => if found then .done true else .scan bytes nameEnd
  | .pollCheck => if found then .done true else .pollDeadline
  | pc => pc

def pollStep : PollResult → Pc
  | .interrupted => .deadline
  | .failed => .done false
  | .timeout => .done false
  | .ready => .read

/-- A buffer holds 4096 bytes. -/
def bufLen : Nat := 4096

def readStep (s : Sys) : ReadResult → Sys
  | .wouldBlock => if s.queue.isEmpty then { s with pc := .deadline } else s
  | .failed => { s with pc := .done false }
  | .eof => { s with pc := .deadline }
  | .events count =>
    let bytes := encode (s.queue.take count)
    if 0 < bytes.length ∧ bytes.length ≤ bufLen then
      { s with queue := s.queue.drop count, pc := .scan bytes 0 }
    else s

def scanStep (target : SocketName) (bytes : List UInt8) (off : Nat) : Pc :=
  match scanNext bytes off with
  | .error _ => .fault
  | .ok none => .read
  | .ok (some (name, nameEnd)) =>
    if name = target.name then .matched bytes nameEnd else .scan bytes nameEnd

/-- One action. What the waiter is not about to do changes nothing. -/
def step (target : SocketName) (s : Sys) : Action → Sys
  | .appear e => { s with dir := e.name :: s.dir, queue := s.emit e }
  | .remove name => { s with dir := s.dir.filter (· ≠ name) }
  | .other e => { s with queue := s.emit e }
  | .look => { s with pc := lookStep target s }
  | .noRuntimeDir => if s.pc = .start then { s with pc := .done false } else s
  | .inotifyInit ok =>
    if s.pc = .inotifyInit then { s with pc := if ok then .addWatch else .pollCheck } else s
  | .addWatch ok =>
    if s.pc = .addWatch then
      if ok then { s with armed := true, pc := .recheck } else { s with pc := .done false }
    else s
  | .deadline expired =>
    match s.pc with
    | .deadline => { s with pc := if expired then .done false else .poll }
    | .pollDeadline => { s with pc := if expired then .done false else .pollCheck }
    | _ => s
  | .poll r => if s.pc = .poll then { s with pc := pollStep r } else s
  | .read r => if s.pc = .read then readStep s r else s
  | .scan =>
    match s.pc with
    | .scan bytes off => { s with pc := scanStep target bytes off }
    | _ => s

/-- The call of `wait_socket`. -/
def init (dir : List Name) : Sys := { dir := dir, armed := false, queue := [], pc := .start }

def run (target : SocketName) (dir : List Name) (actions : List Action) : Sys :=
  actions.foldl (step target) (init dir)

/-! ## The invariant -/

/-- An event names the target. -/
def Named (target : SocketName) (events : List Event) : Prop :=
  ∃ e ∈ events, e.name = target.name

/-- If the target is there, one of the events tells of it. -/
def Told (target : SocketName) (s : Sys) (events : List Event) : Prop :=
  s.present target = true → Named target events

/-- What holds where the waiter is. -/
def At (target : SocketName) (s : Sys) : Pc → Prop
  | .start | .pollCheck | .pollDeadline | .done _ => True
  | .inotifyInit | .addWatch => target.isDir = false
  | .recheck => target.isDir = false ∧ s.armed = true
  | .deadline | .poll | .read => target.isDir = false ∧ s.armed = true ∧ Told target s s.queue
  | .scan bytes off => target.isDir = false ∧ s.armed = true ∧
      ∃ before rest, bytes = encode before ++ encode rest ∧ off = (encode before).length ∧
        Told target s (rest ++ s.queue)
  | .matched bytes nameEnd => target.isDir = false ∧ s.armed = true ∧
      ∃ before rest, bytes = encode before ++ encode rest ∧ nameEnd = (encode before).length
  | .fault => False

def Inv (target : SocketName) (s : Sys) : Prop := At target s s.pc

section Steps

variable {target : SocketName} {s s' : Sys} {events : List Event}

theorem Inv.at {pc : Pc} (hs : Inv target s) (hpc : s.pc = pc) : At target s pc := hpc ▸ hs

theorem Named.append_left (h : Named target events) (more : List Event) :
    Named target (events ++ more) := by
  obtain ⟨e, he, hname⟩ := h
  exact ⟨e, List.mem_append_left more he, hname⟩

theorem told_of_not_present (h : s.present target = false) : Told target s events := by
  intro hpresent
  rw [h] at hpresent
  cases hpresent

theorem isDir_of_not_present (h : s.present target = false) : target.isDir = false :=
  (Bool.or_eq_false_iff.1 h).1

/-- The other processes keep the invariant if whatever appears is told of. -/
theorem At.of_frame {pc : Pc} (hs : At target s pc) (harmed : s'.armed = s.armed)
    (htold : s.armed = true → ∀ events, Told target s (events ++ s.queue) →
      Told target s' (events ++ s'.queue)) : At target s' pc := by
  cases pc with
  | start => trivial
  | pollCheck => trivial
  | pollDeadline => trivial
  | done ok => trivial
  | inotifyInit => exact hs
  | addWatch => exact hs
  | recheck => exact ⟨hs.1, harmed.trans hs.2⟩
  | deadline => exact ⟨hs.1, harmed.trans hs.2.1, htold hs.2.1 [] hs.2.2⟩
  | poll => exact ⟨hs.1, harmed.trans hs.2.1, htold hs.2.1 [] hs.2.2⟩
  | read => exact ⟨hs.1, harmed.trans hs.2.1, htold hs.2.1 [] hs.2.2⟩
  | scan bytes off =>
    obtain ⟨hdir, hon, before, rest, hbytes, hoff, hrest⟩ := hs
    exact ⟨hdir, harmed.trans hon, before, rest, hbytes, hoff, htold hon rest hrest⟩
  | matched bytes nameEnd => exact ⟨hs.1, harmed.trans hs.2.1, hs.2.2⟩
  | fault => exact hs

theorem told_emit (harmed : s.armed = true) (e : Event) (h : Told target s (events ++ s.queue)) :
    Told target s (events ++ s.emit e) := by
  rw [Sys.emit, if_pos harmed, ← List.append_assoc]
  exact fun hpresent => (h hpresent).append_left [e]

theorem inv_appear (hs : Inv target s) (e : Event) : Inv target (step target s (.appear e)) := by
  refine At.of_frame hs rfl ?_
  intro harmed events htold hpresent
  change Named target (events ++ s.emit e)
  by_cases hname : e.name = target.name
  · rw [Sys.emit, if_pos harmed]
    exact ⟨e, by simp, hname⟩
  · have hwas : s.present target = true := by
      simpa [step, Sys.present, Ne.symm hname] using hpresent
    exact told_emit harmed e htold hwas

theorem inv_remove (hs : Inv target s) (name : Name) :
    Inv target (step target s (.remove name)) := by
  refine At.of_frame hs rfl ?_
  intro _ events htold hpresent
  apply htold
  simp only [step, Sys.present, Bool.or_eq_true, List.contains_iff_mem, List.mem_filter] at hpresent ⊢
  exact hpresent.imp_right And.left

theorem inv_other (hs : Inv target s) (e : Event) : Inv target (step target s (.other e)) :=
  At.of_frame hs rfl fun harmed _ htold => told_emit harmed e htold

/-- A look that fails shows that the target is not there, so that nothing is owed. -/
theorem inv_look (hs : Inv target s) : Inv target (step target s .look) := by
  change At target s (lookStep target s)
  unfold Inv at hs
  cases hpresent : s.present target with
  | true =>
    cases hpc : s.pc
    all_goals simp only [lookStep, hpc, hpresent, if_true] at hs ⊢
    all_goals trivial
  | false =>
    have hdir := isDir_of_not_present hpresent
    cases hpc : s.pc
    all_goals simp only [lookStep, hpc, hpresent, Bool.false_eq_true, if_false] at hs ⊢
    case start => exact hdir
    case recheck => exact ⟨hdir, hs.2, told_of_not_present hpresent⟩
    case matched =>
      obtain ⟨-, hon, before, rest, hbytes, hend⟩ := hs
      exact ⟨hdir, hon, before, rest, hbytes, hend, told_of_not_present hpresent⟩
    all_goals exact hs

theorem inv_read (hs : Inv target s) (hpc : s.pc = .read) (r : ReadResult) :
    Inv target (readStep s r) := by
  obtain ⟨hdir, hon, htold⟩ := hs.at hpc
  cases r with
  | wouldBlock =>
    rw [readStep]
    split
    · exact ⟨hdir, hon, htold⟩
    · exact hs
  | failed => trivial
  | eof => exact ⟨hdir, hon, htold⟩
  | events count =>
    simp only [readStep]
    split
    · refine ⟨hdir, hon, [], s.queue.take count, rfl, rfl, ?_⟩
      change Told target s (s.queue.take count ++ s.queue.drop count)
      rw [List.take_append_drop]
      exact htold
    · exact hs

theorem encode_cons (e : Event) (rest : List Event) :
    encode (e :: rest) = e.encode ++ encode rest := rfl

theorem encode_append (before rest : List Event) :
    encode (before ++ rest) = encode before ++ encode rest := List.flatMap_append

/-- The next event of the buffer is the next that is owed, and it is no longer owed when its name is
another. -/
theorem inv_scan {bytes : List UInt8} {off : Nat} (hs : Inv target s) (hpc : s.pc = .scan bytes off) :
    At target s (scanStep target bytes off) := by
  obtain ⟨hdir, hon, before, rest, rfl, rfl, htold⟩ := hs.at hpc
  cases rest with
  | nil =>
    have hend : scanNext (encode before ++ encode []) (encode before).length = .ok none := by
      apply scanNext_short
      rw [show encode [] = [] from rfl, List.append_nil, hdr]
      omega
    rw [scanStep, hend]
    exact ⟨hdir, hon, htold⟩
  | cons e rest =>
    have hbytes : encode before ++ encode (e :: rest) = encode (before ++ [e]) ++ encode rest := by
      rw [← encode_append, ← encode_append, List.append_assoc]
      rfl
    have hlength : (encode (before ++ [e])).length = (encode before).length + e.encode.length := by
      rw [encode_append, List.length_append, encode_cons, List.length_append]
      rfl
    rw [scanStep, encode_cons, scanNext_encode, ← encode_cons, hbytes, ← hlength]
    dsimp only
    split
    · exact ⟨hdir, hon, before ++ [e], rest, rfl, rfl⟩
    · rename_i hname
      refine ⟨hdir, hon, before ++ [e], rest, rfl, rfl, ?_⟩
      intro hpresent
      obtain ⟨e', he', hname'⟩ := htold hpresent
      rcases List.mem_cons.1 he' with rfl | he'
      · exact absurd hname' hname
      · exact ⟨e', he', hname'⟩

theorem inv_step (hs : Inv target s) (a : Action) : Inv target (step target s a) := by
  cases a with
  | appear e => exact inv_appear hs e
  | remove name => exact inv_remove hs name
  | other e => exact inv_other hs e
  | look => exact inv_look hs
  | noRuntimeDir =>
    rw [step]
    split
    · trivial
    · exact hs
  | inotifyInit ok =>
    rw [step]
    split
    · rename_i hpc
      have hs := hs.at hpc
      cases ok with
      | true => exact hs
      | false => trivial
    · exact hs
  | addWatch ok =>
    rw [step]
    split
    · rename_i hpc
      have hs := hs.at hpc
      cases ok with
      | true => exact ⟨hs, rfl⟩
      | false => trivial
    · exact hs
  | deadline expired =>
    rw [step]
    split
    · rename_i hpc
      have hs := hs.at hpc
      cases expired with
      | true => trivial
      | false => exact hs
    · cases expired <;> trivial
    · exact hs
  | poll r =>
    rw [step]
    split
    · rename_i hpc
      have hs := hs.at hpc
      cases r with
      | interrupted => exact hs
      | failed => trivial
      | timeout => trivial
      | ready => exact hs
    · exact hs
  | read r =>
    rw [step]
    split
    · rename_i hpc
      exact inv_read hs hpc r
    · exact hs
  | scan =>
    rw [step]
    split
    · rename_i hpc
      have hscan := inv_scan hs hpc
      exact hscan
    · exact hs

theorem inv_run (target : SocketName) (dir : List Name) (actions : List Action) :
    Inv target (run target dir actions) := by
  induction actions using List.reverseRecOn with
  | nil => trivial
  | append_singleton actions a ih =>
    rw [run, List.foldl_append]
    exact inv_step ih a

theorem readStep_ne_done (hpc : s.pc = .read) (r : ReadResult) : (readStep s r).pc ≠ .done true := by
  have hsame : s.pc ≠ .done true := by
    rw [hpc]
    intro h
    cases h
  cases r with
  | wouldBlock =>
    rw [readStep]
    split
    · intro h
      cases h
    · exact hsame
  | failed =>
    intro h
    cases h
  | eof =>
    intro h
    cases h
  | events count =>
    simp only [readStep]
    split
    · intro h
      cases h
    · exact hsame

theorem scanStep_ne_done (bytes : List UInt8) (off : Nat) :
    scanStep target bytes off ≠ .done true := by
  rw [scanStep]
  rcases scanNext_cases bytes off with hnext | ⟨name, nameEnd, hnext, -, -⟩
  · rw [hnext]
    intro h
    cases h
  · rw [hnext]
    dsimp only
    split
    · intro h
      cases h
    · intro h
      cases h

/-- Only a look that finds the target lets the waiter return `Ok`. -/
theorem look_of_done {a : Action} (hdone : (step target s a).pc = .done true)
    (hnot : s.pc ≠ .done true) : a = .look ∧ s.present target = true := by
  have hsame : s.pc = .done true → a = .look ∧ s.present target = true := fun h => absurd h hnot
  cases a with
  | appear e => exact hsame hdone
  | remove name => exact hsame hdone
  | other e => exact hsame hdone
  | look =>
    change lookStep target s = .done true at hdone
    unfold lookStep at hdone
    cases hpresent : s.present target with
    | true => exact ⟨rfl, rfl⟩
    | false =>
      cases hpc : s.pc
      all_goals simp only [hpc, hpresent, Bool.false_eq_true, if_false, reduceCtorEq] at hdone
      exact absurd (hpc.trans hdone) hnot
  | noRuntimeDir =>
    rw [step] at hdone
    split at hdone
    · cases hdone
    · exact hsame hdone
  | inotifyInit ok =>
    rw [step] at hdone
    split at hdone
    · cases ok <;> cases hdone
    · exact hsame hdone
  | addWatch ok =>
    rw [step] at hdone
    split at hdone
    · cases ok <;> cases hdone
    · exact hsame hdone
  | deadline expired =>
    rw [step] at hdone
    split at hdone
    · cases expired <;> cases hdone
    · cases expired <;> cases hdone
    · exact hsame hdone
  | poll r =>
    rw [step] at hdone
    split at hdone
    · cases r <;> cases hdone
    · exact hsame hdone
  | read r =>
    rw [step] at hdone
    split at hdone
    · rename_i hpc
      exact absurd hdone (readStep_ne_done hpc r)
    · exact hsame hdone
  | scan =>
    rw [step] at hdone
    split at hdone
    · exact absurd hdone (scanStep_ne_done _ _)
    · exact hsame hdone

end Steps

theorem no_lost_wakeup (target : SocketName) (dir : List Name) (actions : List Action) :
    -- About to block without an event, and the socket is not there.
    ((run target dir actions).pc = .poll → (run target dir actions).queue = [] →
      (run target dir actions).present target = false) ∧
    -- `Ok` is only returned at a look that finds the path.
    (∀ a, (step target (run target dir actions) a).pc = .done true →
      (run target dir actions).pc ≠ .done true →
        a = .look ∧ (run target dir actions).present target = true) ∧
    -- The loop over a buffer never reads outside it, and ends: here, and for any bytes at all.
    (run target dir actions).pc ≠ .fault ∧
    ∀ (bytes : List UInt8) (found : Nat → Bool),
      ∃ r, scanLoop bytes target.name found (bytes.length / hdr + 1) 0 = .ok (some r) := by
  have hinv := inv_run target dir actions
  refine ⟨?_, ?_, ?_, ?_⟩
  · intro hpc hqueue
    obtain ⟨-, -, htold⟩ := hinv.at hpc
    by_contra hpresent
    obtain ⟨e, he, -⟩ := htold (by simpa using hpresent)
    rw [hqueue] at he
    cases he
  · intro a hdone hnot
    exact look_of_done hdone hnot
  · intro hpc
    exact hinv.at hpc
  · intro bytes found
    exact scanLoop_ends bytes target.name found 0 _ (Nat.lt_succ_self _)

end VBox.Controld.SocketWait
