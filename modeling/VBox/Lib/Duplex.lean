import Mathlib.Data.List.Infix
import Mathlib.Logic.Relation
import VBox.Lib.Streams

/-!
# Lib.Duplex

Two programs that talk over a connection. Each of them writes some bytes, reads something, or is done;
what it does next depends only on its own state and on the bytes that it reads.

`Talk` is a connection without delay, `Reach` its runs, with the states each side goes through. `Net`
adds what a network adds: bytes come late and in pieces of any size, and reads and writes fail.

* `Reach.join`: two runs of a talk can be completed to the same end, so there is only one outcome.
* `ends_of_reach`: with delays, every run is finite and has the outcome of any run without them.
* `Net.run_of_reach`: the runs without delays are among those with them.
* `Net.tracks_of_run`: with failures too, each side goes through the same states until something fails.
-/

namespace Duplex

open ByteCodec (Bytes)
open ByteStream (Read)

/-- A read that needs some bytes, and does not mind the ones behind them. -/
structure Reader (S : Type) where
  read : Bytes → Option (S × Nat)
  read_le : ∀ {bs s n}, read bs = some (s, n) → n ≤ bs.length
  read_append : ∀ {bs s n} (more : Bytes), read bs = some (s, n) → read (bs ++ more) = some (s, n)

/-- What a party does in a state. A read that fails is left with the bytes that have come. -/
inductive Action (S : Type) where
  | send (bs : Bytes) (next failed : S)
  | recv (reader : Reader S) (failed : Bytes → S)
  | halt

structure Party (S : Type) where
  act : S → Action S
  /-- After a failure it is done. -/
  failed_send : ∀ {s bs next failed}, act s = .send bs next failed → act failed = .halt
  failed_recv : ∀ {s reader failed}, act s = .recv reader failed → ∀ bs, act (failed bs) = .halt

/-- What a move takes and what it sends. -/
structure Moved (S : Type) where
  state : S
  taken : Nat
  sent : Bytes

namespace Party

variable {S : Type} (p : Party S)

def halted (s : S) : Bool :=
  match p.act s with
  | .halt => true
  | _ => false

/-- The next move, with the bytes that wait for the party, and whether they are the last. -/
def move (s : S) (unread : Bytes) (ended : Bool) : Option (Moved S) :=
  match p.act s with
  | .send bs next _ => some ⟨next, 0, bs⟩
  | .recv reader failed =>
    match reader.read unread with
    | some (next, n) => some ⟨next, n, []⟩
    | none => if ended then some ⟨failed unread, unread.length, []⟩ else none
  | .halt => none

variable {p} {s : S} {unread more bs : Bytes} {ended ended' : Bool} {m : Moved S} {reader : Reader S}
  {next failed : S}

theorem halted_iff : p.halted s = true ↔ p.act s = .halt := by
  rw [halted]
  split
  · simp_all
  · rename_i h
    exact iff_of_false Bool.false_ne_true h

theorem move_halted (h : p.halted s = true) : p.move s unread ended = none := by
  rw [move, halted_iff.1 h]

theorem not_halted_of_move (h : p.move s unread ended = some m) : p.halted s = false := by
  rw [← Bool.not_eq_true]
  intro hh
  rw [move_halted hh] at h
  cases h

theorem move_send (h : p.act s = .send bs next failed) :
    p.move s unread ended = some ⟨next, 0, bs⟩ := by
  rw [move, h]

theorem move_recv {f : Bytes → S} {n : Nat} (h : p.act s = .recv reader f)
    (hread : reader.read unread = some (next, n)) : p.move s unread ended = some ⟨next, n, []⟩ := by
  simp only [move, h, hread]

theorem move_over {f : Bytes → S} (h : p.act s = .recv reader f)
    (hread : reader.read unread = none) :
    p.move s unread true = some ⟨f unread, unread.length, []⟩ := by
  simp only [move, h, hread, if_true]

theorem move_waits {f : Bytes → S} (h : p.act s = .recv reader f)
    (hread : reader.read unread = none) : p.move s unread false = none := by
  simp only [move, h, hread, Bool.false_eq_true, if_false]

theorem taken_le (h : p.move s unread ended = some m) : m.taken ≤ unread.length := by
  rw [move] at h
  split at h
  · cases h
    exact Nat.zero_le _
  · split at h
    · rename_i hread
      cases h
      exact Reader.read_le _ hread
    · split at h
      · cases h
        exact Nat.le_refl _
      · cases h
  · cases h

/-- More bytes do not change a move. -/
theorem move_append (h : p.move s unread ended = some m)
    (hover : ended = true → more = [] ∧ ended' = true) : p.move s (unread ++ more) ended' = some m := by
  rw [move] at h ⊢
  split at h
  · exact h
  · split at h
    · rename_i hread
      rw [Reader.read_append _ more hread]
      exact h
    · rename_i hread
      cases ended with
      | false => cases h
      | true =>
        obtain ⟨rfl, rfl⟩ := hover rfl
        rwa [List.append_nil, hread]
  · cases h

end Party

/-- Reads what `x` reads, unless that fails for want of bytes, and goes on with the result. -/
def Reader.ofRead {ε α S : Type} {short : ε → Bool} (x : Read Bytes ε α)
    (hsteady : Read.Steady short x) (k : Except ε α → S) : Reader S where
  read bs :=
    if Read.RanShort short (x bs).1 then none else some (k (x bs).1, bs.length - (x bs).2.length)
  read_le := by
    intro bs s n h
    split at h
    · cases h
    · cases h
      omega
  read_append := by
    intro bs s n more h
    split at h
    · cases h
    · rename_i hshort
      cases h
      rw [hsteady bs more hshort, if_neg hshort]
      simp only [List.length_append, Nat.add_sub_add_right]

section OfRead

variable {ε α S : Type} {short : ε → Bool} {x : Read Bytes ε α} {hsteady : Read.Steady short x}
  {k : Except ε α → S} {a : α} {bs rest : Bytes} {e : ε}

theorem Reader.read_ok (h : x bs = (.ok a, [])) :
    (Reader.ofRead x hsteady k).read bs = some (k (.ok a), bs.length) := by
  simp only [Reader.ofRead, h, Read.RanShort, if_false, List.length_nil, Nat.sub_zero]

theorem Reader.read_short (h : x bs = (.error e, rest)) (hshort : short e = true) :
    (Reader.ofRead x hsteady k).read bs = none := by
  simp only [Reader.ofRead, h, Read.RanShort, hshort, if_true]

/-- Read with `x` and go on with the result. If the connection is lost although the bytes are there,
the error is `lost`. -/
def Action.ofRead (x : Read Bytes ε α) (hsteady : Read.Steady short x) (k : Except ε α → S) (lost : ε) :
    Action S :=
  .recv (Reader.ofRead x hsteady k) fun bs =>
    match (x bs).1 with
    | .error e => k (.error e)
    | .ok _ => k (.error lost)

/-- Such a read is never done with a result when it fails. -/
theorem Action.eq_of_ofRead {reader : Reader S} {failed : Bytes → S} {lost : ε}
    (h : Action.ofRead x hsteady k lost = .recv reader failed) (bs : Bytes) :
    ∃ e, failed bs = k (.error e) := by
  cases h
  dsimp only
  split
  · exact ⟨_, rfl⟩
  · exact ⟨_, rfl⟩

end OfRead

/-! ## Without delay -/

structure Talk (S T : Type) where
  left : S
  right : T
  /-- Sent to the left party and not read yet. -/
  toLeft : Bytes
  toRight : Bytes

namespace Talk

variable {S T : Type}

def moveLeft (c : Talk S T) (m : Moved S) : Talk S T :=
  { left := m.state, right := c.right, toLeft := c.toLeft.drop m.taken, toRight := c.toRight ++ m.sent }

def moveRight (c : Talk S T) (m : Moved T) : Talk S T :=
  { left := c.left, right := m.state, toLeft := c.toLeft ++ m.sent, toRight := c.toRight.drop m.taken }

def swap (c : Talk S T) : Talk T S :=
  { left := c.right, right := c.left, toLeft := c.toRight, toRight := c.toLeft }

@[simp] theorem moveLeft_swap (c : Talk S T) (m : Moved T) :
    c.swap.moveLeft m = (c.moveRight m).swap := rfl

@[simp] theorem moveRight_swap (c : Talk S T) (m : Moved S) :
    c.swap.moveRight m = (c.moveLeft m).swap := rfl

@[simp] theorem swap_swap (c : Talk S T) : c.swap.swap = c := rfl

end Talk

/-- A run, with the states that the two go through. -/
inductive Reach {S T : Type} (p : Party S) (q : Party T) : List S → List T → Talk S T → Talk S T → Prop where
  | refl {c : Talk S T} : Reach p q [] [] c c
  | left {c d : Talk S T} {m : Moved S} {ss : List S} {ts : List T} :
    p.move c.left c.toLeft (q.halted c.right) = some m → Reach p q ss ts (c.moveLeft m) d →
    Reach p q (m.state :: ss) ts c d
  | right {c d : Talk S T} {m : Moved T} {ss : List S} {ts : List T} :
    q.move c.right c.toRight (p.halted c.left) = some m → Reach p q ss ts (c.moveRight m) d →
    Reach p q ss (m.state :: ts) c d

namespace Reach

variable {S T : Type} {p : Party S} {q : Party T} {c d d' : Talk S T} {ss us : List S} {ts vs : List T}

theorem swap (h : Reach p q ss ts c d) : Reach q p ts ss c.swap d.swap := by
  induction h with
  | refl => exact .refl
  | left hm _ ih => exact .right hm ih
  | right hm _ ih => exact .left hm ih

theorem trans (h : Reach p q ss ts c d) (h' : Reach p q us vs d d') :
    Reach p q (ss ++ us) (ts ++ vs) c d' := by
  induction h with
  | refl => exact h'
  | left hm _ ih => exact .left hm (ih h')
  | right hm _ ih => exact .right hm (ih h')

theorem left_last (h : Reach p q ss ts c d) : (c.left :: ss).getLast? = some d.left := by
  induction h with
  | refl => rfl
  | left _ _ ih => rw [List.getLast?_cons_cons]; exact ih
  | right _ _ ih => exact ih

theorem right_last (h : Reach p q ss ts c d) : (c.right :: ts).getLast? = some d.right :=
  h.swap.left_last

theorem right_last_of_ne_nil (h : Reach p q ss ts c d) (hne : ts ≠ []) : ts.getLast? = some d.right := by
  rw [← h.right_last]
  exact (List.getLast?_append_of_ne_nil [c.right] hne).symm

theorem left_mem (h : Reach p q ss ts c d) : d.left ∈ c.left :: ss :=
  List.mem_of_getLast? h.left_last

theorem right_mem (h : Reach p q ss ts c d) : d.right ∈ c.right :: ts :=
  List.mem_of_getLast? h.right_last

/-- The moves of the two sides do not disturb each other. -/
theorem diamond {m : Moved S} {k : Moved T}
    (hm : p.move c.left c.toLeft (q.halted c.right) = some m)
    (hk : q.move c.right c.toRight (p.halted c.left) = some k) :
    p.move (c.moveRight k).left (c.moveRight k).toLeft (q.halted (c.moveRight k).right) = some m ∧
      (c.moveRight k).moveLeft m = (c.moveLeft m).moveRight k := by
  have hright : q.halted c.right = false := Party.not_halted_of_move hk
  refine ⟨Party.move_append hm fun hover => ?_, ?_⟩
  · rw [hright] at hover
    cases hover
  · simp only [Talk.moveLeft, Talk.moveRight, List.drop_append_of_le_length (Party.taken_le hm),
      List.drop_append_of_le_length (Party.taken_le hk)]

/-- A move that a run does not start with is made in the run later, or can be made after it. -/
theorem after_left {m : Moved S} (h : Reach p q us vs c d)
    (hm : p.move c.left c.toLeft (q.halted c.right) = some m) :
    (us = [] ∧ p.move d.left d.toLeft (q.halted d.right) = some m ∧
        Reach p q [] vs (c.moveLeft m) (d.moveLeft m)) ∨
      ∃ us', us = m.state :: us' ∧ Reach p q us' vs (c.moveLeft m) d := by
  induction h with
  | refl => exact .inl ⟨rfl, hm, .refl⟩
  | left hm' hrest _ =>
    obtain rfl := Option.some.inj (hm.symm.trans hm')
    exact .inr ⟨_, rfl, hrest⟩
  | @right c d k us vs hk _ ih =>
    obtain ⟨hmove, hsame⟩ := diamond hm hk
    have hk' : q.move (c.moveLeft m).right (c.moveLeft m).toRight (p.halted (c.moveLeft m).left) =
        some k := (diamond (c := c.swap) hk hm).1
    obtain ⟨rfl, hd, hrest⟩ | ⟨us', rfl, hrest⟩ := ih hmove
    · exact .inl ⟨rfl, hd, .right hk' (hsame ▸ hrest)⟩
    · exact .inr ⟨us', rfl, .right hk' (hsame ▸ hrest)⟩

theorem after_right {k : Moved T} (h : Reach p q us vs c d)
    (hk : q.move c.right c.toRight (p.halted c.left) = some k) :
    (vs = [] ∧ q.move d.right d.toRight (p.halted d.left) = some k ∧
        Reach p q us [] (c.moveRight k) (d.moveRight k)) ∨
      ∃ vs', vs = k.state :: vs' ∧ Reach p q us vs' (c.moveRight k) d := by
  obtain ⟨hvs, hd, hrest⟩ | ⟨vs', hvs, hrest⟩ := h.swap.after_left (m := k) hk
  · exact .inl ⟨hvs, hd, hrest.swap⟩
  · exact .inr ⟨vs', hvs, hrest.swap⟩

/-! ### How runs are made -/

section Exchange

variable {s s' : S} {t t' : T} {bs toLeft toRight : Bytes} {failed : S}

theorem say (hs : p.act s = .send bs s' failed) :
    Reach p q [s'] [] ⟨s, t, toLeft, toRight⟩ ⟨s', t, toLeft, toRight ++ bs⟩ :=
  .left (Party.move_send hs) .refl

theorem hear {reader : Reader T} {f : Bytes → T} (ht : q.act t = .recv reader f)
    (hread : reader.read bs = some (t', bs.length)) :
    Reach p q [] [t'] ⟨s, t, toLeft, bs⟩ ⟨s, t', toLeft, []⟩ := by
  refine .right (m := ⟨t', bs.length, []⟩) (Party.move_recv ht hread) ?_
  simp only [Talk.moveRight, List.drop_length, List.append_nil]
  exact .refl

theorem reply {failed : T} (ht : q.act t = .send bs t' failed) :
    Reach p q [] [t'] ⟨s, t, toLeft, toRight⟩ ⟨s, t', toLeft ++ bs, toRight⟩ :=
  .right (Party.move_send ht) .refl

theorem listen {reader : Reader S} {f : Bytes → S} (hs : p.act s = .recv reader f)
    (hread : reader.read bs = some (s', bs.length)) :
    Reach p q [s'] [] ⟨s, t, bs, toRight⟩ ⟨s', t, [], toRight⟩ :=
  (hear (p := q) (q := p) hs hread).swap

/-- One side writes what the other side waits for. -/
theorem tell {reader : Reader T} {f : Bytes → T} (hs : p.act s = .send bs s' failed)
    (ht : q.act t = .recv reader f) (hread : reader.read bs = some (t', bs.length)) :
    Reach p q [s'] [t'] ⟨s, t, toLeft, []⟩ ⟨s', t', toLeft, []⟩ :=
  (say hs).trans (hear ht hread)

/-- It answers. -/
theorem ask {s'' : S} {t'' : T} {bs' : Bytes} {failed' : T} {reader : Reader T} {f : Bytes → T}
    {reader' : Reader S} {f' : Bytes → S} (hs : p.act s = .send bs s' failed)
    (ht : q.act t = .recv reader f) (hread : reader.read bs = some (t', bs.length))
    (ht' : q.act t' = .send bs' t'' failed') (hs' : p.act s' = .recv reader' f')
    (hread' : reader'.read bs' = some (s'', bs'.length)) :
    Reach p q [s', s''] [t', t''] ⟨s, t, [], []⟩ ⟨s'', t'', [], []⟩ :=
  (tell hs ht hread).trans ((reply ht').trans (listen hs' hread'))

/-- One side is done, and the other side sees the end. -/
theorem hangUp {reader : Reader T} {f : Bytes → T} (hs : p.halted s = true)
    (ht : q.act t = .recv reader f) (hread : reader.read [] = none) :
    Reach p q [] [f []] ⟨s, t, toLeft, []⟩ ⟨s, f [], toLeft, []⟩ := by
  refine .right (m := ⟨f [], 0, []⟩) ?_ ?_
  · show q.move t [] (p.halted s) = _
    rw [hs]
    exact Party.move_over ht hread
  · simp only [Talk.moveRight, List.append_nil]
    exact .refl

end Exchange

/-! ### There is one outcome -/

/-- **Two runs can be joined.** Each side goes through the same states in both, and each run can be
completed with the moves that it lacks. -/
theorem join (h : Reach p q ss ts c d) (h' : Reach p q us vs c d') :
    (ss <+: us ∨ us <+: ss) ∧ (ts <+: vs ∨ vs <+: ts) ∧
      ∃ e, Reach p q (us.drop ss.length) (vs.drop ts.length) d e ∧
        Reach p q (ss.drop us.length) (ts.drop vs.length) d' e := by
  induction h generalizing us vs d' with
  | refl => exact ⟨.inl List.nil_prefix, .inl List.nil_prefix, d', by simpa using h', by simpa using .refl⟩
  | @left c d m ss ts hm _ ih =>
    obtain ⟨rfl, hd', hrest⟩ | ⟨us', rfl, hrest⟩ := h'.after_left hm
    · obtain ⟨-, hts, e, he, he'⟩ := ih hrest
      refine ⟨.inr List.nil_prefix, hts, e, by simpa using he, ?_⟩
      simpa using Reach.left hd' he'
    · obtain ⟨hss, hts, e, he, he'⟩ := ih hrest
      refine ⟨?_, hts, e, by simpa using he, by simpa using he'⟩
      simpa [List.cons_prefix_cons] using hss
  | @right c d k ss ts hk _ ih =>
    obtain ⟨rfl, hd', hrest⟩ | ⟨vs', rfl, hrest⟩ := h'.after_right hk
    · obtain ⟨hss, -, e, he, he'⟩ := ih hrest
      refine ⟨hss, .inr List.nil_prefix, e, by simpa using he, ?_⟩
      simpa using Reach.right hd' he'
    · obtain ⟨hss, hts, e, he, he'⟩ := ih hrest
      refine ⟨hss, ?_, e, by simpa using he, by simpa using he'⟩
      simpa [List.cons_prefix_cons] using hts

theorem of_stuck (h : Reach p q ss ts c d)
    (hleft : p.move c.left c.toLeft (q.halted c.right) = none) (hts : ts = []) : ss = [] ∧ d = c := by
  cases h with
  | refl => exact ⟨rfl, rfl⟩
  | left hm => rw [hleft] at hm; cases hm
  | right hk => cases hts

end Reach

/-- The talk is over. -/
structure Talk.Over {S T : Type} (p : Party S) (q : Party T) (c : Talk S T) : Prop where
  left : p.halted c.left = true
  right : q.halted c.right = true

section Outcome

variable {S T : Type} {p : Party S} {q : Party T} {c d fin : Talk S T} {ss us : List S} {ts vs : List T}

theorem Talk.Over.reach (h : fin.Over p q) (hreach : Reach p q ss ts fin d) :
    ss = [] ∧ ts = [] ∧ d = fin := by
  cases hreach with
  | refl => exact ⟨rfl, rfl, rfl⟩
  | left hm => rw [Party.move_halted h.left] at hm; cases hm
  | right hk => rw [Party.move_halted h.right] at hk; cases hk

/-- When one run ends, every run leads to its end and goes through the same states. -/
theorem Reach.completes (h : Reach p q us vs c fin) (hover : fin.Over p q) (h' : Reach p q ss ts c d) :
    ss <+: us ∧ ts <+: vs ∧ Reach p q (us.drop ss.length) (vs.drop ts.length) d fin := by
  obtain ⟨hss, hts, e, he, he'⟩ := h'.join h
  obtain ⟨hdrop, hdrop', rfl⟩ := hover.reach he'
  rw [List.drop_eq_nil_iff] at hdrop hdrop'
  refine ⟨hss.elim id fun hpre => ?_, hts.elim id fun hpre => ?_, he⟩
  · rw [hpre.eq_of_length_le hdrop]
  · rw [hpre.eq_of_length_le hdrop']

/-- What a side has to wait for: if it is stuck after some moves, it goes on only when the other side has
moved further. -/
theorem Reach.waits (h : Reach p q us vs c d) (hstuck : p.move d.left d.toLeft (q.halted d.right) = none)
    {d' : Talk S T} (h' : Reach p q ss ts c d') (hlt : us.length < ss.length) :
    vs.length < ts.length := by
  obtain ⟨-, -, e, -, he⟩ := h'.join h
  by_contra hle
  obtain ⟨hnil, -⟩ := he.of_stuck hstuck (List.drop_eq_nil_of_le (Nat.le_of_not_lt hle))
  have := List.drop_eq_nil_iff.1 hnil
  omega

/-- A run that is stuck on the left at `w`: later the right side has moved on from there. -/
theorem Reach.left_mem_or_right_mem {w : Talk S T} {us₁ us₂ : List S} {vs₁ vs₂ : List T}
    (h₁ : Reach p q us₁ vs₁ c w) (hstuck : p.move w.left w.toLeft (q.halted w.right) = none)
    (h₂ : Reach p q us₂ vs₂ w fin) (hover : fin.Over p q) (h : Reach p q ss ts c d) :
    d.left ∈ c.left :: us₁ ∨ d.right ∈ vs₂ := by
  obtain ⟨hss, hts, -⟩ := (h₁.trans h₂).completes hover h
  by_cases hlt : us₁.length < ss.length
  · have hlong := h₁.waits hstuck h hlt
    obtain ⟨ts', rfl⟩ := List.prefix_of_prefix_length_le (List.prefix_append vs₁ vs₂) hts hlong.le
    have hne : ts' ≠ [] := by
      rintro rfl
      simp at hlong
    refine .inr (((List.prefix_append_right_inj vs₁).1 hts).subset ?_)
    have hlast := h.right_last_of_ne_nil (by simp [hne])
    rw [List.getLast?_append_of_ne_nil _ hne] at hlast
    exact List.mem_of_getLast? hlast
  · have hpre := List.prefix_of_prefix_length_le hss (List.prefix_append us₁ us₂) (Nat.le_of_not_lt hlt)
    exact .inl ((List.cons_subset_cons c.left hpre.subset) h.left_mem)

end Outcome

/-! ## Delays and failures -/

/-- A connection whose bytes come late: of what waits for a side, it can read so many bytes. -/
structure Net (S T : Type) extends Talk S T where
  leftHas : Nat
  rightHas : Nat

namespace Net

variable {S T : Type}

/-- Nothing is under way. -/
def start (s : S) (t : T) : Net S T :=
  { left := s, right := t, toLeft := [], toRight := [], leftHas := 0, rightHas := 0 }

def moveLeft (n : Net S T) (m : Moved S) : Net S T :=
  { n with toTalk := n.toTalk.moveLeft m, leftHas := n.leftHas - m.taken }

def moveRight (n : Net S T) (m : Moved T) : Net S T :=
  { n with toTalk := n.toTalk.moveRight m, rightHas := n.rightHas - m.taken }

def swap (n : Net S T) : Net T S :=
  { toTalk := n.toTalk.swap, leftHas := n.rightHas, rightHas := n.leftHas }

/-- The bytes that have come, and whether they are the last. -/
def leftSees (q : Party T) (n : Net S T) : Bytes × Bool :=
  (n.toLeft.take n.leftHas, q.halted n.right && decide (n.toLeft.length ≤ n.leftHas))

def rightSees (p : Party S) (n : Net S T) : Bytes × Bool :=
  (n.toRight.take n.rightHas, p.halted n.left && decide (n.toRight.length ≤ n.rightHas))

end Net

/-- One side moves, or more bytes come. -/
inductive Net.Step {S T : Type} (p : Party S) (q : Party T) (n : Net S T) : Net S T → Prop where
  | left {m : Moved S} : p.move n.left (n.leftSees q).1 (n.leftSees q).2 = some m →
    Step p q n (n.moveLeft m)
  | right {m : Moved T} : q.move n.right (n.rightSees p).1 (n.rightSees p).2 = some m →
    Step p q n (n.moveRight m)
  | arriveLeft {k : Nat} : n.leftHas < k → k ≤ n.toLeft.length → Step p q n { n with leftHas := k }
  | arriveRight {k : Nat} : n.rightHas < k → k ≤ n.toRight.length → Step p q n { n with rightHas := k }

/-- All runs from here are finite, and `P` holds where they end. -/
inductive Net.Ends {S T : Type} (p : Party S) (q : Party T) (P : Net S T → Prop) : Net S T → Prop where
  | intro {n : Net S T} : (∀ n', n.Step p q n' → Ends p q P n') → ((∀ n', ¬ n.Step p q n') → P n) →
    Ends p q P n

section Delays

variable {S T : Type} {p : Party S} {q : Party T} {n n' : Net S T} {fin : Talk S T} {us : List S}
  {vs : List T}

theorem Net.left_move {m : Moved S} (h : p.move n.left (n.leftSees q).1 (n.leftSees q).2 = some m) :
    p.move n.left n.toLeft (q.halted n.right) = some m := by
  have hall : p.move n.left (n.toLeft.take n.leftHas ++ n.toLeft.drop n.leftHas) (q.halted n.right) =
      some m := Party.move_append h fun hover => by
    simp only [Net.leftSees, Bool.and_eq_true, decide_eq_true_eq] at hover
    exact ⟨List.drop_eq_nil_of_le hover.2, hover.1⟩
  rwa [List.take_append_drop] at hall

theorem Net.right_move {m : Moved T}
    (h : q.move n.right (n.rightSees p).1 (n.rightSees p).2 = some m) :
    q.move n.right n.toRight (p.halted n.left) = some m :=
  Net.left_move (n := n.swap) h

/-- When everything has come, a side sees all there is. -/
theorem Net.eq_of_stuck (hstuck : ∀ n', ¬ n.Step p q n') (h : Reach p q us vs n.toTalk fin) :
    n.toTalk = fin := by
  have hleft : n.leftSees q = (n.toLeft, q.halted n.right) := by
    have hhas : n.toLeft.length ≤ n.leftHas := by
      by_contra hlt
      exact hstuck _ (.arriveLeft (Nat.lt_of_not_le hlt) (Nat.le_refl _))
    rw [Net.leftSees, List.take_of_length_le hhas, decide_eq_true hhas, Bool.and_true]
  have hright : n.rightSees p = (n.toRight, p.halted n.left) := by
    have hhas : n.toRight.length ≤ n.rightHas := by
      by_contra hlt
      exact hstuck _ (.arriveRight (Nat.lt_of_not_le hlt) (Nat.le_refl _))
    rw [Net.rightSees, List.take_of_length_le hhas, decide_eq_true hhas, Bool.and_true]
  cases h with
  | refl => rfl
  | left hm => exact absurd (.left (by rw [hleft]; exact hm)) (hstuck _)
  | right hk => exact absurd (.right (by rw [hright]; exact hk)) (hstuck _)

/-- Bytes that have not come. -/
def Net.pending (n : Net S T) : Nat := (n.toLeft.length - n.leftHas) + (n.toRight.length - n.rightHas)

/-- **Delays change nothing.** If a run without delays ends, then with delays every run ends, and in
the same way. -/
theorem ends_of_reach (hover : fin.Over p q) (h : Reach p q us vs n.toTalk fin) :
    n.Ends p q fun n' => n'.toTalk = fin := by
  -- a move brings the end nearer, and between two moves only so many bytes can come
  induction hmoves : us.length + vs.length using Nat.strongRecOn generalizing n us vs with
  | ind moves ihMoves =>
  induction hpending : n.pending using Nat.strongRecOn generalizing n with
  | ind pending ihPending =>
  refine .intro (fun n' hstep => ?_) fun hstuck => n.eq_of_stuck hstuck h
  cases hstep with
  | left hm =>
    obtain ⟨hus, -, hrest⟩ := h.completes hover (.left (n.left_move hm) .refl)
    have := hus.length_le
    exact ihMoves _ (by simp at this ⊢; omega) hrest rfl
  | right hk =>
    obtain ⟨-, hvs, hrest⟩ := h.completes hover (.right (n.right_move hk) .refl)
    have := hvs.length_le
    exact ihMoves _ (by simp at this ⊢; omega) hrest rfl
  | arriveLeft hlt hle =>
    exact ihPending _ (by simp only [Net.pending] at hpending ⊢; omega) h rfl
  | arriveRight hlt hle =>
    exact ihPending _ (by simp only [Net.pending] at hpending ⊢; omega) h rfl

/-- A connection on which everything has come. -/
def Talk.net (c : Talk S T) : Net S T :=
  { toTalk := c, leftHas := c.toLeft.length, rightHas := c.toRight.length }

theorem Net.arrives (hleft : n.leftHas ≤ n.toLeft.length) (hright : n.rightHas ≤ n.toRight.length) :
    Relation.ReflTransGen (Net.Step p q) n n.toTalk.net := by
  have hfirst : Relation.ReflTransGen (Net.Step p q) n { n with leftHas := n.toLeft.length } := by
    rcases hleft.eq_or_lt with heq | hlt
    · rw [← heq]
    · exact .single (.arriveLeft hlt (Nat.le_refl _))
  have hsecond : Relation.ReflTransGen (Net.Step p q) { n with leftHas := n.toLeft.length }
      n.toTalk.net := by
    rcases hright.eq_or_lt with heq | hlt
    · rw [Talk.net, ← heq]
    · exact .single (.arriveRight (n := { n with leftHas := n.toLeft.length }) hlt (Nat.le_refl _))
  exact hfirst.trans hsecond

/-- A run without delays is one of the runs with delays. -/
theorem Net.run_of_reach {c d : Talk S T} (h : Reach p q us vs c d) :
    Relation.ReflTransGen (Net.Step p q) c.net d.net := by
  induction h with
  | refl => exact .refl
  | @left c d m us vs hm _ ih =>
    have hstep : c.net.Step p q (c.net.moveLeft m) :=
      .left (by simpa [Net.leftSees, Talk.net] using hm)
    exact .head hstep ((Net.arrives (by simp [Net.moveLeft, Talk.moveLeft, Talk.net])
      (by simp [Net.moveLeft, Talk.moveLeft, Talk.net])).trans ih)
  | @right c d k us vs hk _ ih =>
    have hstep : c.net.Step p q (c.net.moveRight k) :=
      .right (by simpa [Net.rightSees, Talk.net] using hk)
    exact .head hstep ((Net.arrives (by simp [Net.moveRight, Talk.moveRight, Talk.net])
      (by simp [Net.moveRight, Talk.moveRight, Talk.net])).trans ih)

theorem Net.Ends.mono {P Q : Net S T → Prop} (h : n.Ends p q P) (himp : ∀ n', P n' → Q n') :
    n.Ends p q Q := by
  induction h with
  | intro _ hend ih => exact .intro ih fun hstuck => himp _ (hend hstuck)

end Delays

section Failures

variable {S T : Type} {p : Party S} {q : Party T}

/-- A read or a write that goes wrong; of a write, some bytes may have gone out. -/
inductive Party.Fails (p : Party S) (s : S) : Bytes → S → Prop where
  | send {bs cut : Bytes} {next failed : S} : p.act s = .send bs next failed → cut <+: bs →
    Fails p s cut failed
  | recv {reader : Reader S} {failed : Bytes → S} (bs : Bytes) : p.act s = .recv reader failed →
    Fails p s [] (failed bs)

/-- A step, or a failure. -/
inductive Net.FaultyStep (p : Party S) (q : Party T) (n : Net S T) : Net S T → Prop where
  | step {n' : Net S T} : n.Step p q n' → FaultyStep p q n n'
  | left {cut : Bytes} {s : S} : p.Fails n.left cut s →
    FaultyStep p q n { n with left := s, toRight := n.toRight ++ cut }
  | right {cut : Bytes} {t : T} : q.Fails n.right cut t →
    FaultyStep p q n { n with right := t, toLeft := n.toLeft ++ cut }

/-- A run in which nothing is late and nothing fails. -/
theorem Net.faultyRun_of_reach {c d : Talk S T} {ss : List S} {ts : List T}
    (h : Reach p q ss ts c d) : Relation.ReflTransGen (Net.FaultyStep p q) c.net d.net :=
  Relation.ReflTransGen.mono (fun _ _ hstep => Net.FaultyStep.step hstep) _ _ (Net.run_of_reach h)

/-- The party is in a state, or has just written its way there from it. -/
def Party.Leads (p : Party S) (s s' : S) : Prop :=
  s = s' ∨ ∃ bs failed, p.act s = .send bs s' failed

/-- A side is where it would be without failures, or what led there has failed. Then it has sent
less. -/
inductive Party.Follows (p : Party S) (before : List S) (s s' : S) (sent sent' : Bytes) : Prop where
  | up : s = s' → sent = sent' → Follows p before s s' sent sent'
  | failed {s₀ : S} {cut : Bytes} : s₀ ∈ before → p.Leads s₀ s' → p.Fails s₀ cut s →
    p.halted s = true → sent <+: sent' → Follows p before s s' sent sent'

/-- A connection with failures beside one without. -/
structure Net.Tracks (p : Party S) (q : Party T) (c : Talk S T) (n : Net S T) (ss : List S) (ts : List T)
    (d : Talk S T) : Prop where
  reach : Reach p q ss ts c d
  left : p.Follows (c.left :: ss) n.left d.left n.toRight d.toRight
  right : q.Follows (c.right :: ts) n.right d.right n.toLeft d.toLeft

variable {c d : Talk S T} {n n' : Net S T} {ss : List S} {ts : List T} {s s' : S} {bs : Bytes}
  {ended : Bool} {m : Moved S}

/-- What a party does at the end of its input that it does not do before is to fail. -/
theorem Party.move_ended (h : p.move s bs false = none) (h' : p.move s bs ended = some m) :
    ∃ reader failed, p.act s = .recv reader failed ∧ m = ⟨failed bs, bs.length, []⟩ := by
  rw [Party.move] at h h'
  split at h
  · cases h
  · rename_i reader failed hact
    refine ⟨reader, failed, hact, ?_⟩
    split at h
    · cases h
    · rename_i hread
      rw [hact] at h'
      simp only [hread] at h'
      split at h'
      · exact (Option.some.inj h').symm
      · cases h'
  · rename_i hact
    rw [hact] at h'
    cases h'

theorem Party.Fails.halted {cut : Bytes} (h : p.Fails s cut s') :
    p.halted s = false ∧ p.halted s' = true := by
  cases h with
  | send hact _ =>
    refine ⟨?_, Party.halted_iff.2 (p.failed_send hact)⟩
    rw [Party.halted, hact]
  | recv bs hact =>
    refine ⟨?_, Party.halted_iff.2 (p.failed_recv hact bs)⟩
    rw [Party.halted, hact]

namespace Net

theorem Tracks.swap (h : n.Tracks p q c ss ts d) : n.swap.Tracks q p c.swap ts ss d.swap :=
  ⟨h.reach.swap, h.right, h.left⟩

theorem Tracks.moveLeft (h : n.Tracks p q c ss ts d)
    (hm : p.move n.left (n.leftSees q).1 (n.leftSees q).2 = some m) :
    ∃ ss' ts' d', (n.moveLeft m).Tracks p q c ss' ts' d' := by
  have hmove := n.left_move hm
  obtain ⟨hs, hsent⟩ | ⟨-, -, -, hhalted, -⟩ := h.left
  swap
  · rw [Party.not_halted_of_move hmove] at hhalted
    cases hhalted
  have hboth : ∀ {d'}, p.move d.left d.toLeft (q.halted d.right) = some m → d' = d.moveLeft m →
      q.Follows (c.right :: ts) n.right d.right (n.toLeft.drop m.taken) d'.toLeft →
      (n.moveLeft m).Tracks p q c (ss ++ [m.state]) (ts ++ []) d' := by
    rintro _ hd rfl hright
    rw [List.append_nil]
    have := h.reach.trans (.left hd .refl)
    rw [List.append_nil] at this
    exact ⟨this, .up rfl (by simp only [Net.moveLeft, Talk.moveLeft, hsent]), hright⟩
  cases h.right with
  | up ht hsent' =>
    refine ⟨_, _, _, hboth ?_ rfl (.up ht ?_)⟩
    · rwa [← hs, ← ht, ← hsent']
    · rw [hsent']
      rfl
  | failed hmem hleads hfails hhalted hless =>
    obtain ⟨more, hmore⟩ := hless
    cases hsettled : p.move n.left n.toLeft false with
    | some m' =>
      -- it reads what it would have read
      have hsame : p.move n.left (n.toLeft ++ []) (q.halted n.right) = some m' :=
        Party.move_append hsettled nofun
      rw [List.append_nil, hmove] at hsame
      cases hsame
      refine ⟨_, _, _, hboth ?_ rfl (.failed hmem hleads hfails hhalted ⟨more, ?_⟩)⟩
      · rw [← hs, ← hmore]
        exact Party.move_append hsettled nofun
      · rw [Talk.moveLeft, ← hmore, List.drop_append_of_le_length (Party.taken_le hmove)]
    | none =>
      -- it comes to an end that is not the real one
      obtain ⟨reader, failed, hact, rfl⟩ := Party.move_ended hsettled hmove
      have hfails' := Party.Fails.recv n.toLeft hact
      refine ⟨ss, ts, d, h.reach, .failed (hs ▸ h.reach.left_mem) (.inl hs) hfails'
        hfails'.halted.2 ?_, .failed hmem hleads hfails hhalted ⟨d.toLeft, ?_⟩⟩
      · simp [Net.moveLeft, Talk.moveLeft, hsent]
      · simp [Net.moveLeft, Talk.moveLeft]

theorem Tracks.failLeft {cut : Bytes} (h : n.Tracks p q c ss ts d) (hfails : p.Fails n.left cut s) :
    ∃ ss' ts' d', Tracks p q c { n with left := s, toRight := n.toRight ++ cut } ss' ts' d' := by
  obtain ⟨hs, hsent⟩ | ⟨-, -, -, hhalted, -⟩ := h.left
  swap
  · rw [hfails.halted.1] at hhalted
    cases hhalted
  have hmem : n.left ∈ c.left :: ss := hs ▸ h.reach.left_mem
  cases hfails with
  | @send bs _ next _ hact hcut =>
    -- without the failure all of it would have gone out
    have hd : p.move d.left d.toLeft (q.halted d.right) = some ⟨next, 0, bs⟩ := by
      rw [← hs]
      exact Party.move_send hact
    refine ⟨ss ++ [next], ts ++ [], _, h.reach.trans (.left hd .refl), ?_, ?_⟩
    · refine .failed ?_ (.inr ⟨_, _, hact⟩) (.send hact hcut) (Party.Fails.halted (.send hact hcut)).2 ?_
      · rw [← List.cons_append]
        exact List.mem_append_left _ hmem
      · rw [hsent]
        exact (List.prefix_append_right_inj _).2 hcut
    · rw [List.append_nil]
      exact h.right
  | recv bs hact =>
    have hfails := Party.Fails.recv bs hact
    refine ⟨ss, ts, d, h.reach, .failed hmem (.inl hs) hfails hfails.halted.2 ?_, h.right⟩
    rw [List.append_nil, hsent]

theorem Tracks.step (h : n.Tracks p q c ss ts d) (hstep : n.FaultyStep p q n') :
    ∃ ss' ts' d', n'.Tracks p q c ss' ts' d' := by
  cases hstep with
  | step hstep =>
    cases hstep with
    | left hm => exact h.moveLeft hm
    | right hk =>
      obtain ⟨ts', ss', d', hswap⟩ := h.swap.moveLeft (n := n.swap) hk
      exact ⟨ss', ts', d'.swap, hswap.swap⟩
    | arriveLeft => exact ⟨ss, ts, d, h.reach, h.left, h.right⟩
    | arriveRight => exact ⟨ss, ts, d, h.reach, h.left, h.right⟩
  | left hfails => exact h.failLeft hfails
  | right hfails =>
    obtain ⟨ts', ss', d', hswap⟩ := h.swap.failLeft (n := n.swap) hfails
    exact ⟨ss', ts', d'.swap, hswap.swap⟩

/-- **Failures only cut short.** Whatever fails, each side goes through the states of a run without
delays and failures, up to the state in which something fails. -/
theorem tracks_of_run (n : Net S T) (h : Relation.ReflTransGen (Net.FaultyStep p q) n n') :
    ∃ ss ts d, n'.Tracks p q n.toTalk ss ts d := by
  induction h with
  | refl => exact ⟨[], [], _, .refl, .up rfl rfl, .up rfl rfl⟩
  | tail _ hstep ih =>
    obtain ⟨ss, ts, d, h⟩ := ih
    exact h.step hstep

end Net

end Failures
end Duplex
