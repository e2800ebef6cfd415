import Mathlib.Data.List.Infix
import VBox.Lib.Read

/-!
# Lib.Streams

Reading off a byte stream that grows.

A computation is `Steady` if only running out of bytes can make it change its mind: what it returns
otherwise, it also returns when more bytes have come, and it leaves them unread. `Steady` is kept by
what readers are built with.

An `ItemReader` takes one item off the front of the bytes there are, or none as long as there are too
few.

* `items bs`: everything that can be read off `bs`.
* `items_prefix`: more bytes only add items at the end.
* `Encodes.items_append`: an encoding, whatever follows it, is read as its item.
-/

namespace ByteStream

open ByteCodec (Bytes)

namespace Read

variable {ε ε' α β : Type} {short : ε → Bool} {x : Read Bytes ε α}

/-- The read failed for want of bytes. -/
def RanShort (short : ε → Bool) : Except ε α → Prop
  | .ok _ => False
  | .error e => short e = true

instance (r : Except ε α) : Decidable (RanShort short r) :=
  match r with
  | .ok _ => isFalse id
  | .error e => inferInstanceAs (Decidable (short e = true))

def Steady (short : ε → Bool) (x : Read Bytes ε α) : Prop :=
  ∀ bs more, ¬ RanShort short (x bs).1 → x (bs ++ more) = ((x bs).1, (x bs).2 ++ more)

theorem Steady.ok (hx : Steady short x) {bs rest : Bytes} {a : α} (h : x bs = (.ok a, rest))
    (more : Bytes) : x (bs ++ more) = (.ok a, rest ++ more) := by
  have := hx bs more (by simp [h, RanShort])
  rwa [h] at this

theorem steady_fail (e : ε) : Steady short (fail e : Read Bytes ε α) := fun _ _ _ => rfl

theorem steady_pure (a : α) : Steady short (pure a : Read Bytes ε α) := fun _ _ _ => rfl

theorem steady_lift (v : Except ε α) : Steady short (lift v) := by
  intro bs more _
  simp

theorem steady_bind {f : α → Read Bytes ε β} (hx : Steady short x)
    (hf : ∀ a, Steady short (f a)) : Steady short (x >>= f) := by
  intro bs more hshort
  rcases h : x bs with ⟨e | a, rest⟩
  · rw [bind_of_error h] at hshort
    have hsame := hx bs more (by rwa [h])
    rw [h] at hsame
    rw [bind_of_error h, bind_of_error hsame]
  · rw [bind_of_ok h] at hshort ⊢
    rw [bind_of_ok (hx.ok h more)]
    exact hf a rest more hshort

theorem steady_ite {c : Prop} [Decidable c] {y : Read Bytes ε α} (hx : Steady short x)
    (hy : Steady short y) : Steady short (if c then x else y) := by
  split
  · exact hx
  · exact hy

/-- A read of the next `n` bytes whose error says that there were too few. -/
theorem steady_readExact {f : IoErrorKind → ε} (hf : ∀ kind, short (f kind) = true) (n : Nat) :
    Steady short ((Source.bytes.readExact n).mapError f) := by
  intro bs more hshort
  have hread : ∀ s : Bytes, (Source.bytes.readExact n).mapError f s =
      if n ≤ s.length then (.ok (s.take n), s.drop n) else (.error (f .unexpectedEof), []) := by
    intro s
    simp only [mapError, Source.bytes]
    split
    · rename_i h; split at h <;> simp_all
    · rename_i h; split at h <;> simp_all
  rw [hread] at hshort ⊢
  split at hshort
  · rename_i hn
    rw [hread, if_pos (by simp; omega), if_pos hn, List.take_append_of_le_length hn,
      List.drop_append_of_le_length hn]
  · exact absurd (hf _) hshort

end Read

structure ItemReader (α : Type) where
  read : Bytes → Option (α × Bytes)
  read_append : ∀ {bs a rest} (more : Bytes), read bs = some (a, rest) →
    read (bs ++ more) = some (a, rest ++ more)
  read_lt : ∀ {bs a rest}, read bs = some (a, rest) → rest.length < bs.length

namespace ItemReader

variable {ε α : Type}

/-- One item is what a read returns that takes bytes when it succeeds. -/
def ofRead {short : ε → Bool} (x : Read Bytes ε α) (hsteady : Read.Steady short x)
    (hlt : ∀ {bs a rest}, x bs = (.ok a, rest) → rest.length < bs.length) : ItemReader α where
  read bs :=
    match x bs with
    | (.ok a, rest) => some (a, rest)
    | (.error _, _) => none
  read_append := by
    intro bs a rest more h
    split at h
    · rename_i hx
      cases h
      rw [hsteady.ok hx more]
    · cases h
  read_lt := by
    intro bs a rest h
    split at h
    · rename_i hx
      cases h
      exact hlt hx
    · cases h

variable (r : ItemReader α)

def itemsUpTo : Nat → Bytes → List α
  | 0, _ => []
  | fuel + 1, bs =>
    match r.read bs with
    | none => []
    | some (a, rest) => a :: itemsUpTo fuel rest

def items (bs : Bytes) : List α := r.itemsUpTo bs.length bs

variable {r} {bs rest : Bytes} {a : α}

theorem itemsUpTo_of_length_le {m n : Nat} (hm : bs.length ≤ m) (hn : bs.length ≤ n) :
    r.itemsUpTo m bs = r.itemsUpTo n bs := by
  have hempty : ∀ k, r.itemsUpTo k [] = [] := by
    intro k
    cases k with
    | zero => rfl
    | succ k =>
      rw [itemsUpTo]
      split
      · rfl
      · rename_i hread
        exact absurd (r.read_lt hread) (Nat.not_lt_zero _)
  induction m generalizing n bs with
  | zero =>
    rw [List.length_eq_zero_iff.1 (Nat.le_zero.1 hm), hempty, hempty]
  | succ m ih =>
    cases n with
    | zero => rw [List.length_eq_zero_iff.1 (Nat.le_zero.1 hn), hempty, hempty]
    | succ n =>
      rw [itemsUpTo, itemsUpTo]
      split
      · rfl
      · rename_i rest hread
        have hlt := r.read_lt hread
        rw [ih (by omega) (by omega : rest.length ≤ n)]

theorem items_of_none (h : r.read bs = none) : r.items bs = [] := by
  rw [items]
  cases bs.length with
  | zero => rfl
  | succ n => rw [itemsUpTo, h]

theorem items_of_some (h : r.read bs = some (a, rest)) : r.items bs = a :: r.items rest := by
  have hlt := r.read_lt h
  obtain ⟨n, hn⟩ : ∃ n, bs.length = n + 1 := ⟨bs.length - 1, by omega⟩
  rw [items, hn, itemsUpTo, h]
  exact congrArg (a :: ·) (itemsUpTo_of_length_le (by omega) (Nat.le_refl _))

@[simp] theorem items_nil : r.items [] = [] := rfl

/-- What was read stays read. -/
theorem items_prefix (bs more : Bytes) : r.items bs <+: r.items (bs ++ more) := by
  induction h : bs.length using Nat.strongRecOn generalizing bs with
  | ind n ih =>
    cases hread : r.read bs with
    | none =>
      rw [items_of_none hread]
      exact List.nil_prefix
    | some found =>
      obtain ⟨a, rest⟩ := found
      have hlt := r.read_lt hread
      rw [items_of_some hread, items_of_some (r.read_append more hread)]
      exact List.prefix_cons_inj a |>.2 (ih rest.length (by omega) rest rfl)

/-- Some bytes that are read as one item, whatever comes after them. -/
def Encodes (r : ItemReader α) (a : α) (bs : Bytes) : Prop := r.read bs = some (a, [])

theorem Encodes.items_append (h : r.Encodes a bs) (more : Bytes) :
    r.items (bs ++ more) = a :: r.items more :=
  items_of_some (by simpa using r.read_append more h)

end ItemReader
end ByteStream
