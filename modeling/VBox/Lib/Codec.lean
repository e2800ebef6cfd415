import Mathlib.Data.List.Basic
import Mathlib.Data.Nat.Log
import Mathlib.Data.Vector.Basic
import Mathlib.Logic.Equiv.Defs
import Mathlib.Tactic.Ring

/-!
# Lib.Codec

Byte codecs. A `Codec α` packs an encoder with the decoder that reads its output back from the
front of a stream, and carries the two facts every user needs:

* `decode_encode`: decoding an encoding followed by anything gives the value and that rest;
* `shortest`: a decoder may accept other encodings of a value, but none shorter than `encode`'s.

The combinators (`map`, `pmap`, `prod`, `sigma`, `option`, `list`) keep both, so a codec of a
record or of a tagged union is assembled without a proof of its own. Integers are LEB128
varints: seven bits a byte, least significant first, the top bit set on all bytes but the last.
-/

namespace ByteCodec

abbrev Bytes := List UInt8

structure Codec (α : Type) where
  encode : α → Bytes
  decode : Bytes → Option (α × Bytes)
  decode_encode : ∀ a rest, decode (encode a ++ rest) = some (a, rest)
  shortest : ∀ {bs a rest}, decode bs = some (a, rest) →
    (encode a).length + rest.length ≤ bs.length

attribute [simp] Codec.decode_encode

/-! ## Varints -/

/-- At most `k` bytes of the varint of `n`; it is the whole varint when `n < 128 ^ k`. -/
def encodeVarint : Nat → Nat → Bytes
  | 0, _ => []
  | k + 1, n =>
    if n < 128 then [UInt8.ofNat n]
    else UInt8.ofNat (n % 128 + 128) :: encodeVarint k (n / 128)

/-- Read a varint of at most `k` bytes. Overlong encodings (a zero last group) are accepted. -/
def decodeVarint : Nat → Bytes → Option (Nat × Bytes)
  | 0, _ => none
  | _ + 1, [] => none
  | k + 1, b :: bs =>
    if b.toNat < 128 then some (b.toNat, bs)
    else
      match decodeVarint k bs with
      | none => none
      | some (v, rest) => some (b.toNat - 128 + 128 * v, rest)

theorem toNat_ofNat_of_lt {n : Nat} (h : n < 256) : (UInt8.ofNat n).toNat = n := by
  simp only [UInt8.toNat_ofNat']; omega

theorem div_lt_of_lt_pow_succ {n k : Nat} (h : n < 128 ^ (k + 1)) : n / 128 < 128 ^ k := by
  rw [Nat.pow_succ] at h
  exact Nat.div_lt_of_lt_mul (by rw [Nat.mul_comm]; exact h)

theorem decodeVarint_encodeVarint :
    ∀ (k n : Nat) (rest : Bytes), 0 < k → n < 128 ^ k →
      decodeVarint k (encodeVarint k n ++ rest) = some (n, rest) := by
  intro k
  induction k with
  | zero => intro n rest hk; omega
  | succ k ih =>
    intro n rest _ h
    by_cases hn : n < 128
    · simp [encodeVarint, decodeVarint, hn, Nat.mod_eq_of_lt (by omega : n < 256)]
    · have hb : (UInt8.ofNat (n % 128 + 128)).toNat = n % 128 + 128 :=
        toNat_ofNat_of_lt (by omega)
      have hdiv : n / 128 < 128 ^ k := div_lt_of_lt_pow_succ h
      have hk : 0 < k := by
        rcases Nat.eq_zero_or_pos k with rfl | hpos
        · simp at h; omega
        · exact hpos
      simp only [encodeVarint, if_neg hn, List.cons_append, decodeVarint, hb, ih _ rest hk hdiv]
      rw [if_neg (by omega)]
      congr 2; omega

/-- Whatever the decoder accepts for `n`, the encoder's output (under any budget `j`) is no
longer. -/
theorem encodeVarint_shortest :
    ∀ {k n : Nat} {bs rest : Bytes} (j : Nat), decodeVarint k bs = some (n, rest) →
      (encodeVarint j n).length + rest.length ≤ bs.length := by
  intro k
  induction k with
  | zero => intro n bs rest j h; simp [decodeVarint] at h
  | succ k ih =>
    intro n bs rest j h
    cases bs with
    | nil => simp [decodeVarint] at h
    | cons b bs =>
      simp only [decodeVarint] at h
      split at h
      · rename_i hb; cases h
        cases j with
        | zero => simp [encodeVarint]
        | succ j => simp [encodeVarint, hb, Nat.add_comm]
      · split at h
        · cases h
        · rename_i hb v rest' hv; cases h
          have hlt := b.toNat_lt
          have hdiv : (b.toNat - 128 + 128 * v) / 128 = v := by omega
          cases j with
          | zero => have := ih 0 hv; simp [encodeVarint] at this ⊢; omega
          | succ j =>
            have hrest := ih j hv
            by_cases hn : b.toNat - 128 + 128 * v < 128
            · simp only [encodeVarint, if_pos hn, List.length_cons, List.length_nil]; omega
            · simp only [encodeVarint, if_neg hn, hdiv, List.length_cons]; omega

/-- The input itself bounds how many bytes a varint can take. -/
theorem decodeVarint_length :
    ∀ {k : Nat} {bs : Bytes} {r : Nat × Bytes}, decodeVarint k bs = some r →
      decodeVarint bs.length bs = some r := by
  intro k
  induction k with
  | zero => intro bs r h; simp [decodeVarint] at h
  | succ k ih =>
    intro bs r h
    cases bs with
    | nil => simp [decodeVarint] at h
    | cons b bs =>
      simp only [List.length_cons, decodeVarint] at h ⊢
      split at h
      · rename_i hb; rw [if_pos hb]; exact h
      · rename_i hb
        rw [if_neg hb]
        split at h
        · cases h
        · rename_i v rest' hv; rw [ih hv]; exact h

/-- A varint is never longer than the number of base-128 digits of a bound. -/
theorem encodeVarint_length_le :
    ∀ {k j n : Nat}, 0 < j → n < 128 ^ j → (encodeVarint k n).length ≤ j := by
  intro k
  induction k with
  | zero => intro j n _ _; simp [encodeVarint]
  | succ k ih =>
    intro j n hj hn
    by_cases h : n < 128
    · simp [encodeVarint, h]; omega
    · obtain ⟨j, rfl⟩ : ∃ i, j = i + 1 := ⟨j - 1, by omega⟩
      have hdiv : n / 128 < 128 ^ j := div_lt_of_lt_pow_succ hn
      have hj0 : 0 < j := by
        rcases Nat.eq_zero_or_pos j with rfl | hpos
        · simp at hn; omega
        · exact hpos
      have := ih hj0 hdiv
      simp only [encodeVarint, if_neg h, List.length_cons]; omega

/-- How many bytes the varint of a number takes. -/
def varintLength (n : Nat) : Nat := Nat.log 128 n + 1

theorem encodeVarint_length :
    ∀ {k n : Nat}, 0 < k → n < 128 ^ k → (encodeVarint k n).length = varintLength n := by
  intro k
  induction k with
  | zero => intro n hk _; omega
  | succ k ih =>
    intro n _ hn
    by_cases h : n < 128
    · simp [encodeVarint, varintLength, h, Nat.log_of_lt]
    · have hk : 0 < k := by
        rcases Nat.eq_zero_or_pos k with rfl | hpos
        · simp at hn; omega
        · exact hpos
      have hlog : Nat.log 128 n = Nat.log 128 (n / 128) + 1 :=
        Nat.log_of_one_lt_of_le (by omega) (by omega)
      rw [encodeVarint, if_neg h, List.length_cons, ih hk (div_lt_of_lt_pow_succ hn), varintLength,
        varintLength, hlog]

/-! ## Fixed-width words -/

/-- The four bytes of a word, most significant first. -/
def u32ToBe (n : UInt32) : Bytes :=
  [UInt8.ofNat (n.toNat / 2 ^ 24), UInt8.ofNat (n.toNat / 2 ^ 16), UInt8.ofNat (n.toNat / 2 ^ 8),
    UInt8.ofNat n.toNat]

def u32FromBe : Bytes → UInt32
  | [a, b, c, d] => UInt32.ofNat (a.toNat * 2 ^ 24 + b.toNat * 2 ^ 16 + c.toNat * 2 ^ 8 + d.toNat)
  | _ => 0

@[simp] theorem u32ToBe_length (n : UInt32) : (u32ToBe n).length = 4 := rfl

@[simp] theorem u32FromBe_u32ToBe (n : UInt32) : u32FromBe (u32ToBe n) = n := by
  apply UInt32.toNat_inj.mp
  have := n.toNat_lt
  simp only [u32ToBe, u32FromBe, UInt8.toNat_ofNat', UInt32.toNat_ofNat']
  omega

theorem u32ToBe_u32FromBe {bs : Bytes} (h : bs.length = 4) : u32ToBe (u32FromBe bs) = bs := by
  obtain ⟨a, b, c, d, rfl⟩ : ∃ a b c d, bs = [a, b, c, d] := by
    match bs, h with
    | [a, b, c, d], _ => exact ⟨a, b, c, d, rfl⟩
  have ha := a.toNat_lt
  have hb := b.toNat_lt
  have hc := c.toNat_lt
  have hd := d.toNat_lt
  simp only [u32FromBe, u32ToBe, UInt32.toNat_ofNat', List.cons.injEq, and_true]
  refine ⟨?_, ?_, ?_, ?_⟩ <;> apply UInt8.toNat_inj.mp <;> simp only [UInt8.toNat_ofNat'] <;> omega

namespace Codec

variable {α β : Type}

/-! ## Primitive codecs -/

/-- Nothing. -/
def unit : Codec Unit where
  encode _ := []
  decode bs := some ((), bs)
  decode_encode _ _ := rfl
  shortest := by intro bs a rest h; cases h; simp

/-- One raw byte. -/
def byte : Codec UInt8 where
  encode b := [b]
  decode
    | [] => none
    | b :: bs => some (b, bs)
  decode_encode _ _ := rfl
  shortest := by
    intro bs a rest h
    cases bs with
    | nil => cases h
    | cons b bs => cases h; simp [Nat.add_comm]

/-- A natural number below `bound`, as a varint of at most `k` bytes. -/
def varint (k bound : Nat) (hk : 0 < k) (h : bound ≤ 128 ^ k) : Codec (Fin bound) where
  encode n := encodeVarint k n
  decode bs :=
    match decodeVarint k bs with
    | none => none
    | some (v, rest) => if hv : v < bound then some (⟨v, hv⟩, rest) else none
  decode_encode := by
    intro n rest
    simp [decodeVarint_encodeVarint k n rest hk (Nat.lt_of_lt_of_le n.isLt h)]
  shortest := by
    intro bs a rest h
    split at h
    · cases h
    · rename_i v rest' hv
      split at h
      · cases h; exact encodeVarint_shortest k hv
      · cases h

/-- An unbounded varint; it counts the elements of a sequence. -/
def nat : Codec Nat where
  encode n := encodeVarint (n + 1) n
  decode bs := decodeVarint bs.length bs
  decode_encode := by
    intro n rest
    have hlt : n < 128 ^ (n + 1) :=
      Nat.lt_of_lt_of_le (Nat.lt_pow_self (by omega)) (Nat.pow_le_pow_right (by omega) (by omega))
    exact decodeVarint_length (decodeVarint_encodeVarint (n + 1) n rest (by omega) hlt)
  shortest := fun h => encodeVarint_shortest _ h

/-- Exactly `n` raw bytes. -/
def raw (n : Nat) : Codec (List.Vector UInt8 n) where
  encode v := v.toList
  decode bs :=
    if h : n ≤ bs.length then some (⟨bs.take n, by simp [h]⟩, bs.drop n) else none
  decode_encode := by
    rintro ⟨l, rfl⟩ rest
    have hn : l.length ≤ (l ++ rest).length := by simp
    simp only [List.Vector.toList_mk, dif_pos hn, List.take_left, List.drop_left]
  shortest := by
    intro bs v rest h
    split at h
    · rename_i hn; cases h
      simp [List.Vector.toList_mk]; omega
    · cases h

/-! ## Combinators -/

/-- Read the same bytes as another type. -/
def map (c : Codec α) (e : α ≃ β) : Codec β where
  encode b := c.encode (e.symm b)
  decode bs :=
    match c.decode bs with
    | none => none
    | some (a, rest) => some (e a, rest)
  decode_encode := by intro b rest; simp
  shortest := by
    intro bs b rest h
    split at h
    · cases h
    · rename_i a rest' ha; cases h
      simpa using c.shortest ha

/-- Read the same bytes as a type whose values are some of the codec's. -/
def pmap (c : Codec α) (f : α → Option β) (g : β → α) (h : ∀ a b, f a = some b ↔ g b = a) :
    Codec β where
  encode b := c.encode (g b)
  decode bs :=
    match c.decode bs with
    | none => none
    | some (a, rest) =>
      match f a with
      | none => none
      | some b => some (b, rest)
  decode_encode := by
    intro b rest
    have hb : f (g b) = some b := (h _ _).2 rfl
    simp [hb]
  shortest := by
    intro bs b rest hd
    split at hd
    · cases hd
    · rename_i a rest' ha
      split at hd
      · cases hd
      · rename_i b' hb; cases hd
        rw [(h _ _).1 hb]; exact c.shortest ha

/-- Two values, one after the other. -/
def prod (c : Codec α) (d : Codec β) : Codec (α × β) where
  encode p := c.encode p.1 ++ d.encode p.2
  decode bs :=
    match c.decode bs with
    | none => none
    | some (a, bs') =>
      match d.decode bs' with
      | none => none
      | some (b, rest) => some ((a, b), rest)
  decode_encode := by intro p rest; simp [List.append_assoc]
  shortest := by
    intro bs p rest h
    split at h
    · cases h
    · rename_i a bs' ha
      split at h
      · cases h
      · rename_i b rest' hb; cases h
        have h1 := c.shortest ha
        have h2 := d.shortest hb
        simp only [List.length_append]; omega

/-- A tag, then the payload the tag selects. -/
def sigma {ι : Type} {P : ι → Type} (c : Codec ι) (d : ∀ i, Codec (P i)) : Codec (Σ i, P i) where
  encode p := c.encode p.1 ++ (d p.1).encode p.2
  decode bs :=
    match c.decode bs with
    | none => none
    | some (i, bs') =>
      match (d i).decode bs' with
      | none => none
      | some (b, rest) => some (⟨i, b⟩, rest)
  decode_encode := by intro p rest; simp [List.append_assoc]
  shortest := by
    intro bs p rest h
    split at h
    · cases h
    · rename_i i bs' hi
      split at h
      · cases h
      · rename_i b rest' hb; cases h
        have h1 := c.shortest hi
        have h2 := (d i).shortest hb
        simp only [List.length_append]; omega

/-! ## Sequences -/

/-- The elements of a sequence, one after the other. -/
def encodeAll (c : Codec α) : List α → Bytes
  | [] => []
  | a :: as => c.encode a ++ encodeAll c as

def decodeAll (c : Codec α) : Nat → Bytes → Option (List α × Bytes)
  | 0, bs => some ([], bs)
  | n + 1, bs =>
    match c.decode bs with
    | none => none
    | some (a, bs') =>
      match decodeAll c n bs' with
      | none => none
      | some (as, rest) => some (a :: as, rest)

theorem decodeAll_encodeAll (c : Codec α) (as : List α) (rest : Bytes) :
    decodeAll c as.length (encodeAll c as ++ rest) = some (as, rest) := by
  induction as with
  | nil => rfl
  | cons a as ih => simp [encodeAll, decodeAll, List.append_assoc, ih]

theorem encodeAll_shortest (c : Codec α) :
    ∀ {n : Nat} {bs : Bytes} {as : List α} {rest : Bytes}, decodeAll c n bs = some (as, rest) →
      as.length = n ∧ (encodeAll c as).length + rest.length ≤ bs.length := by
  intro n
  induction n with
  | zero => intro bs as rest h; cases h; simp [encodeAll]
  | succ n ih =>
    intro bs as rest h
    simp only [decodeAll] at h
    split at h
    · cases h
    · rename_i a bs' ha
      split at h
      · cases h
      · rename_i as' rest' has; cases h
        obtain ⟨hlen, hle⟩ := ih has
        have h1 := c.shortest ha
        refine ⟨by simp [hlen], ?_⟩
        simp only [encodeAll, List.length_append]; omega

/-- A sequence: its length, then its elements. -/
def list (c : Codec α) : Codec (List α) where
  encode as := nat.encode as.length ++ encodeAll c as
  decode bs :=
    match nat.decode bs with
    | none => none
    | some (n, bs') => decodeAll c n bs'
  decode_encode := by intro as rest; simp [List.append_assoc, decodeAll_encodeAll]
  shortest := by
    intro bs as rest h
    split at h
    · cases h
    · rename_i n bs' hn
      obtain ⟨rfl, hle⟩ := encodeAll_shortest c h
      have := nat.shortest hn
      simp only [List.length_append]; omega

end Codec
end ByteCodec
