import VBox.Lib.Codec

/-!
# Lib.Read

Exact-or-fail reads. `Read σ ε α` is a computation that reads from a source of type `σ`; the
source advances whether or not the read succeeds, so what a failed read has swallowed is visible.

Two sources are given, both through `readExact n`, which returns `n` bytes or fails:

* `Source.bytes`: a finite byte string; running out of it is `unexpectedEof`.
* `Source.socket`: bytes that arrive one by one, with read timeouts between them. A timeout
  fails the read with `wouldBlock`, and the bytes read so far are dropped with the buffer they
  were read into. A socket with nothing left to deliver only times out.
-/

namespace ByteStream

open ByteCodec (Bytes)

inductive IoErrorKind where
  | unexpectedEof
  | wouldBlock
  deriving DecidableEq, Repr

def Read (σ ε α : Type) : Type := σ → Except ε α × σ

namespace Read

variable {σ ε ε' ε'' α β : Type}

instance : Monad (Read σ ε) where
  pure a := fun s => (.ok a, s)
  bind x f := fun s =>
    match x s with
    | (.ok a, s') => f a s'
    | (.error e, s') => (.error e, s')

/-- Give up with `e`, leaving the source where it is. -/
def fail (e : ε) : Read σ ε α := fun s => (.error e, s)

/-- Rewrite the error of a read that failed. -/
def mapError (f : ε → ε') (x : Read σ ε α) : Read σ ε' α := fun s =>
  match x s with
  | (.ok a, s') => (.ok a, s')
  | (.error e, s') => (.error (f e), s')

/-- Lift a computation that reads nothing. -/
def lift : Except ε α → Read σ ε α
  | .ok a => fun s => (.ok a, s)
  | .error e => fail e

@[simp] theorem lift_apply (x : Except ε α) (s : σ) : (lift x : Read σ ε α) s = (x, s) := by
  cases x <;> rfl

theorem bind_apply (x : Read σ ε α) (f : α → Read σ ε β) (s : σ) :
    (x >>= f) s = match x s with
      | (.ok a, s') => f a s'
      | (.error e, s') => (.error e, s') := rfl

theorem bind_of_ok {x : Read σ ε α} {f : α → Read σ ε β} {s s' : σ} {a : α}
    (h : x s = (.ok a, s')) : (x >>= f) s = f a s' := by
  rw [bind_apply, h]

theorem bind_of_error {x : Read σ ε α} {f : α → Read σ ε β} {s s' : σ} {e : ε}
    (h : x s = (.error e, s')) : (x >>= f) s = (.error e, s') := by
  rw [bind_apply, h]

theorem mapError_of_ok {f : ε → ε'} {x : Read σ ε α} {s s' : σ} {a : α}
    (h : x s = (.ok a, s')) : mapError f x s = (.ok a, s') := by
  rw [mapError, h]

theorem mapError_of_error {f : ε → ε'} {x : Read σ ε α} {s s' : σ} {e : ε}
    (h : x s = (.error e, s')) : mapError f x s = (.error (f e), s') := by
  rw [mapError, h]

/-- A bind succeeds when both of its halves do. -/
theorem bind_ok_iff {x : Read σ ε α} {f : α → Read σ ε β} {s s'' : σ} {b : β} :
    (x >>= f) s = (.ok b, s'') ↔ ∃ a s', x s = (.ok a, s') ∧ f a s' = (.ok b, s'') := by
  rw [bind_apply]
  constructor
  · intro h
    split at h
    · rename_i a s' hx; exact ⟨a, s', hx, h⟩
    · cases h
  · rintro ⟨a, s', hx, hf⟩; rw [hx]; exact hf

theorem mapError_ok_iff {f : ε → ε'} {x : Read σ ε α} {s s' : σ} {a : α} :
    mapError f x s = (.ok a, s') ↔ x s = (.ok a, s') := by
  constructor
  · intro h
    rw [mapError] at h
    split at h
    · rename_i a' s'' hx; cases h; exact hx
    · cases h
  · exact mapError_of_ok

/-- A bind fails in its first half or, after that has succeeded, in its second. -/
theorem bind_error {x : Read σ ε α} {f : α → Read σ ε β} {s s'' : σ} {e : ε}
    (h : (x >>= f) s = (.error e, s'')) :
    x s = (.error e, s'') ∨ ∃ a s', x s = (.ok a, s') ∧ f a s' = (.error e, s'') := by
  rw [bind_apply] at h
  split at h
  · rename_i a s' hx; exact .inr ⟨a, s', hx, h⟩
  · rename_i e' s' hx; cases h; exact .inl hx

theorem mapError_error {f : ε → ε'} {x : Read σ ε α} {s s' : σ} {e : ε'}
    (h : mapError f x s = (.error e, s')) : ∃ e₀, x s = (.error e₀, s') ∧ e = f e₀ := by
  rw [mapError] at h
  split at h
  · cases h
  · rename_i e₀ s'' hx; cases h; exact ⟨e₀, hx, rfl⟩

/-! ### Readers that differ only in their error texts -/

/-- Two reads agree: from every source they both accept, with the same value, or both reject,
and they leave the source at the same place. -/
def Agree (x : Read σ ε α) (y : Read σ ε' α) : Prop :=
  ∀ s, (∃ a s', x s = (.ok a, s') ∧ y s = (.ok a, s')) ∨
    ∃ e e' s', x s = (.error e, s') ∧ y s = (.error e', s')

theorem agree_fail (e : ε) (e' : ε') : Agree (fail e : Read σ ε α) (fail e' : Read σ ε' α) :=
  fun s => .inr ⟨e, e', s, rfl, rfl⟩

theorem agree_lift (x : Except ε α) : Agree (lift x : Read σ ε α) (lift x) := by
  intro s
  cases x with
  | ok a => exact .inl ⟨a, s, rfl, rfl⟩
  | error e => exact .inr ⟨e, e, s, rfl, rfl⟩

theorem agree_mapError (f : ε → ε') (g : ε → ε'') (x : Read σ ε α) :
    Agree (mapError f x) (mapError g x) := by
  intro s
  rcases hx : x s with ⟨e | a, s'⟩
  · exact .inr ⟨f e, g e, s', mapError_of_error hx, mapError_of_error hx⟩
  · exact .inl ⟨a, s', mapError_of_ok hx, mapError_of_ok hx⟩

theorem agree_bind {x : Read σ ε α} {y : Read σ ε' α} {f : α → Read σ ε β} {g : α → Read σ ε' β}
    (h : Agree x y) (hf : ∀ a, Agree (f a) (g a)) : Agree (x >>= f) (y >>= g) := by
  intro s
  rcases h s with ⟨a, s', hx, hy⟩ | ⟨e, e', s', hx, hy⟩
  · rw [bind_of_ok hx, bind_of_ok hy]; exact hf a s'
  · exact .inr ⟨e, e', s', bind_of_error hx, bind_of_error hy⟩

theorem agree_ite {c : Prop} [Decidable c] {x x' : Read σ ε α} {y y' : Read σ ε' α}
    (h : Agree x y) (h' : Agree x' y') : Agree (if c then x else x') (if c then y else y') := by
  by_cases hc : c
  · rw [if_pos hc, if_pos hc]; exact h
  · rw [if_neg hc, if_neg hc]; exact h'

end Read

/-- Something bytes are read from. `takes s bs s'` says that `s` hands over `bs` without a failure
in between and is at `s'` then; `readExact n` succeeds exactly when the next `n` bytes can be
taken so. -/
structure Source (σ : Type) where
  readExact : Nat → Read σ IoErrorKind Bytes
  takes : σ → Bytes → σ → Prop
  readExact_ok : ∀ {n s bs s'}, readExact n s = (.ok bs, s') ↔ bs.length = n ∧ takes s bs s'
  takes_nil : ∀ {s s'}, takes s [] s' ↔ s = s'
  takes_append : ∀ {s s'' bs bs'}, takes s (bs ++ bs') s'' ↔
    ∃ s', takes s bs s' ∧ takes s' bs' s''

namespace Source

/-! ## Byte strings -/

/-- A finite byte string. A read past its end takes what is left with it. -/
def bytes : Source Bytes where
  readExact n := fun s =>
    if n ≤ s.length then (.ok (s.take n), s.drop n) else (.error .unexpectedEof, [])
  takes s bs s' := s = bs ++ s'
  readExact_ok := by
    intro n s bs s'
    constructor
    · intro h
      split at h
      · rename_i hn; cases h
        exact ⟨by simp [hn], (List.take_append_drop n s).symm⟩
      · cases h
    · rintro ⟨rfl, rfl⟩; simp
  takes_nil := by intro s s'; simp
  takes_append := by
    intro s s'' bs bs'
    simp [List.append_assoc]

/-! ## Sockets with a read timeout -/

/-- What a socket does next: hand over a byte, or let the read time out. -/
inductive Event where
  | byte (b : UInt8)
  | timeout
  deriving DecidableEq, Repr

def readExactEvents : Nat → List Event → Except IoErrorKind Bytes × List Event
  | 0, es => (.ok [], es)
  | _ + 1, [] => (.error .wouldBlock, [])
  | _ + 1, .timeout :: es => (.error .wouldBlock, es)
  | n + 1, .byte b :: es =>
    match readExactEvents n es with
    | (.ok bs, es') => (.ok (b :: bs), es')
    | (.error e, es') => (.error e, es')

theorem readExactEvents_append (bs : Bytes) (es : List Event) :
    readExactEvents bs.length (bs.map .byte ++ es) = (.ok bs, es) := by
  induction bs with
  | nil => rfl
  | cons b bs ih => simp [readExactEvents, ih]

theorem readExactEvents_ok {n : Nat} {es es' : List Event} {bs : Bytes}
    (h : readExactEvents n es = (.ok bs, es')) : bs.length = n ∧ es = bs.map .byte ++ es' := by
  induction n generalizing es bs with
  | zero => simp only [readExactEvents] at h; cases h; simp
  | succ n ih =>
    match es, h with
    | [], h => cases h
    | .timeout :: es, h => cases h
    | .byte b :: es, h =>
      simp only [readExactEvents] at h
      split at h
      · rename_i bs' es'' hr; cases h
        obtain ⟨hlen, rfl⟩ := ih hr
        simp [hlen]
      · cases h

def socket : Source (List Event) where
  readExact := readExactEvents
  takes es bs es' := es = bs.map .byte ++ es'
  readExact_ok := by
    intro n es bs es'
    constructor
    · exact readExactEvents_ok
    · rintro ⟨rfl, rfl⟩; exact readExactEvents_append bs es'
  takes_nil := by intro es es'; simp
  takes_append := by
    intro es es'' bs bs'
    simp [List.append_assoc]

/-- `es` hands over `bs` and then times out into `es'`, or has nothing more to say. -/
def Swallows (es : List Event) (bs : Bytes) (es' : List Event) : Prop :=
  es = bs.map .byte ++ .timeout :: es' ∨ (es = bs.map .byte ∧ es' = [])

theorem Swallows.after {es es₁ es' : List Event} {bs bs₁ : Bytes} (h : socket.takes es bs es₁)
    (h' : Swallows es₁ bs₁ es') : Swallows es (bs ++ bs₁) es' := by
  have hes : es = bs.map .byte ++ es₁ := h
  subst hes
  rcases h' with rfl | ⟨rfl, rfl⟩
  · exact .inl (by simp [List.append_assoc])
  · exact .inr ⟨by simp, rfl⟩

theorem Swallows.length_lt {es es' : List Event} {bs : Bytes} (h : Swallows es bs es')
    (hne : es ≠ []) : es'.length < es.length := by
  rcases h with rfl | ⟨rfl, rfl⟩
  · simp; omega
  · exact List.length_pos_iff.2 hne

/-- A failed read on a socket is a timeout, and the bytes before it are gone. -/
theorem socket_readExact_error {n : Nat} {es es' : List Event} {e : IoErrorKind}
    (h : socket.readExact n es = (.error e, es')) :
    e = .wouldBlock ∧ ∃ bs, Swallows es bs es' := by
  simp only [socket] at h
  induction n generalizing es with
  | zero => cases h
  | succ n ih =>
    match es, h with
    | [], h => cases h; exact ⟨rfl, [], .inr ⟨rfl, rfl⟩⟩
    | .timeout :: es, h => cases h; exact ⟨rfl, [], .inl rfl⟩
    | .byte b :: es, h =>
      simp only [readExactEvents] at h
      split at h
      · cases h
      · rename_i e' es'' hr; cases h
        obtain ⟨he, bs, hes⟩ := ih hr
        exact ⟨he, [b] ++ bs, hes.after rfl⟩

/-- The bytes a socket hands over, timeouts left out. -/
def payload : List Event → Bytes
  | [] => []
  | .byte b :: es => b :: payload es
  | .timeout :: es => payload es

@[simp] theorem payload_append (es es' : List Event) :
    payload (es ++ es') = payload es ++ payload es' := by
  induction es with
  | nil => rfl
  | cons e es ih => cases e <;> simp [payload, ih]

@[simp] theorem payload_map_byte (bs : Bytes) : payload (bs.map .byte) = bs := by
  induction bs with
  | nil => rfl
  | cons b bs ih => simp [payload, ih]

end Source
end ByteStream
