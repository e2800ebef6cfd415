import Mathlib.Algebra.Group.Nat.Defs

/-!
# Lib.Hex

Bytes as pairs of hexadecimal digits, in the standard operations of Rust's `char` and `u8`.

* `encode`, `decode`: bytes as lowercase digits, and pairs of digits as bytes.
* `decode_encode`: what was encoded is decoded again.
* `encode_decode`: what was decoded is encoded in lowercase.
* `parseByte_pair`: `u8::from_str_radix` on two digits.
-/

namespace Hex

/-- `char::is_ascii_hexdigit` -/
def isHexdigit (c : Char) : Bool :=
  ('0' ≤ c && c ≤ '9') || ('a' ≤ c && c ≤ 'f') || ('A' ≤ c && c ≤ 'F')

/-- `char::to_digit(16)` -/
def toDigit (c : Char) : Option Nat :=
  if '0' ≤ c ∧ c ≤ '9' then some (c.toNat - '0'.toNat)
  else if 'a' ≤ c ∧ c ≤ 'f' then some (c.toNat - 'a'.toNat + 10)
  else if 'A' ≤ c ∧ c ≤ 'F' then some (c.toNat - 'A'.toNat + 10)
  else none

/-- The digits of `u8::from_str_radix(_, 16)`, after the sign. -/
def parseDigits (acc : Nat) : List Char → Option UInt8
  | [] => some (UInt8.ofNat acc)
  | c :: rest =>
    match toDigit c with
    | none => none
    | some d => if acc * 16 + d < 256 then parseDigits (acc * 16 + d) rest else none

/-- `u8::from_str_radix(_, 16)` -/
def parseByte : List Char → Option UInt8
  | [] => none
  | ['+'] => none
  | ['-'] => none
  | '+' :: rest => parseDigits 0 rest
  | src => parseDigits 0 src

/-- `{byte:02x}` -/
def byte (b : UInt8) : List Char :=
  let digits := Nat.toDigits 16 b.toNat
  List.replicate (2 - digits.length) '0' ++ digits

def encode (bytes : List UInt8) : List Char := bytes.flatMap byte

/-- The value of a digit. -/
def value (c : Char) : Nat := (toDigit c).getD 0

/-- The bytes of pairs of digits. -/
def decode : List Char → List UInt8
  | hi :: lo :: rest => UInt8.ofNat (16 * value hi + value lo) :: decode rest
  | _ => []

/-! ## Digits -/

/-- A property of the ASCII characters is checked for each. -/
theorem ascii_forall {P : Char → Prop} (h : ∀ n < 128, P (Char.ofNat n)) {c : Char}
    (hc : c.toNat < 128) : P c := by
  have := h c.toNat hc
  rwa [Char.ofNat_toNat] at this

theorem toNat_lt_of_isHexdigit {c : Char} (h : isHexdigit c = true) : c.toNat < 128 := by
  simp only [isHexdigit, Bool.or_eq_true, Bool.and_eq_true, decide_eq_true_eq, Char.le_def,
    UInt32.le_iff_toNat_le] at h
  have h9 : '9'.val.toNat = 57 := rfl
  have hf : 'f'.val.toNat = 102 := rfl
  have hF : 'F'.val.toNat = 70 := rfl
  show c.val.toNat < 128
  omega

/-- A digit is the digit of its value, in one of the two cases. -/
theorem toDigit_of_isHexdigit {c : Char} (h : isHexdigit c = true) :
    toDigit c = some (value c) ∧ value c < 16 ∧ Nat.digitChar (value c) = c.toLower ∧
      isHexdigit c.toLower = true ∧ value c.toLower = value c ∧ c ≠ '+' ∧ c ≠ '-' := by
  have hall : ∀ n < 128, isHexdigit (Char.ofNat n) = true →
      toDigit (Char.ofNat n) = some (value (Char.ofNat n)) ∧ value (Char.ofNat n) < 16 ∧
        Nat.digitChar (value (Char.ofNat n)) = (Char.ofNat n).toLower ∧
        isHexdigit (Char.ofNat n).toLower = true ∧
        value (Char.ofNat n).toLower = value (Char.ofNat n) ∧
        Char.ofNat n ≠ '+' ∧ Char.ofNat n ≠ '-' := by
    decide
  exact ascii_forall (P := fun c => isHexdigit c = true → toDigit c = some (value c) ∧ value c < 16 ∧
      Nat.digitChar (value c) = c.toLower ∧ isHexdigit c.toLower = true ∧
      value c.toLower = value c ∧ c ≠ '+' ∧ c ≠ '-') hall (toNat_lt_of_isHexdigit h) h

theorem digitChar_spec : ∀ d < 16, isHexdigit (Nat.digitChar d) = true ∧
    value (Nat.digitChar d) = d ∧ (Nat.digitChar d).toLower = Nat.digitChar d := by
  decide

theorem byte_eq (b : UInt8) :
    byte b = [Nat.digitChar (b.toNat / 16), Nat.digitChar (b.toNat % 16)] := by
  have hall : ∀ n < 256, List.replicate (2 - (Nat.toDigits 16 n).length) '0' ++ Nat.toDigits 16 n =
      [Nat.digitChar (n / 16), Nat.digitChar (n % 16)] := by
    decide +kernel
  exact hall b.toNat b.toNat_lt

/-- Two digits are a byte. -/
theorem parseByte_pair {hi lo : Char} (hhi : isHexdigit hi = true) (hlo : isHexdigit lo = true) :
    parseByte [hi, lo] = some (UInt8.ofNat (16 * value hi + value lo)) := by
  obtain ⟨hhi', hhilt, -, -, -, hplus, hminus⟩ := toDigit_of_isHexdigit hhi
  obtain ⟨hlo', hlolt, -⟩ := toDigit_of_isHexdigit hlo
  have hdigits : parseByte [hi, lo] = parseDigits 0 [hi, lo] := by
    unfold parseByte
    split <;> simp_all
  rw [hdigits, parseDigits, hhi']
  simp only
  rw [if_pos (by omega), parseDigits, hlo']
  simp only
  rw [if_pos (by omega), parseDigits]
  congr 2
  omega

/-! ## Digits and bytes -/

theorem decode_encode (bytes : List UInt8) : decode (encode bytes) = bytes := by
  induction bytes with
  | nil => rfl
  | cons b bytes ih =>
    have hb := b.toNat_lt
    obtain ⟨-, hhi, -⟩ := digitChar_spec (b.toNat / 16) (by omega)
    obtain ⟨-, hlo, -⟩ := digitChar_spec (b.toNat % 16) (by omega)
    rw [encode, List.flatMap_cons, byte_eq]
    simp only [List.cons_append, List.nil_append, decode, hhi, hlo]
    rw [← encode, ih, Nat.div_add_mod, UInt8.ofNat_toNat]

theorem isHexdigit_of_mem_encode {bytes : List UInt8} {c : Char} (h : c ∈ encode bytes) :
    isHexdigit c = true ∧ c.toLower = c := by
  obtain ⟨b, -, hc⟩ := List.mem_flatMap.1 h
  have hb := b.toNat_lt
  rw [byte_eq] at hc
  obtain rfl | hc := List.mem_cons.1 hc
  · obtain ⟨hhex, -, hlower⟩ := digitChar_spec (b.toNat / 16) (by omega)
    exact ⟨hhex, hlower⟩
  · rw [List.mem_singleton.1 hc]
    obtain ⟨hhex, -, hlower⟩ := digitChar_spec (b.toNat % 16) (by omega)
    exact ⟨hhex, hlower⟩

theorem encode_length (bytes : List UInt8) : (encode bytes).length = 2 * bytes.length := by
  induction bytes with
  | nil => rfl
  | cons b bytes ih =>
    rw [encode, List.flatMap_cons, List.length_append, ← encode, ih, byte_eq, List.length_cons]
    simp only [List.length_cons, List.length_nil]
    omega

theorem encode_decode : ∀ {cs : List Char}, cs.length % 2 = 0 →
    (∀ c ∈ cs, isHexdigit c = true) → encode (decode cs) = cs.map Char.toLower
  | [], _, _ => rfl
  | [_], hlen, _ => (nomatch hlen)
  | hi :: lo :: rest, hlen, hcs => by
    obtain ⟨-, hhilt, hhi, -⟩ := toDigit_of_isHexdigit (hcs hi List.mem_cons_self)
    obtain ⟨-, hlolt, hlo, -⟩ :=
      toDigit_of_isHexdigit (hcs lo (List.mem_cons_of_mem _ List.mem_cons_self))
    have hrest : encode (decode rest) = rest.map Char.toLower :=
      encode_decode (by rw [List.length_cons, List.length_cons] at hlen; omega)
        fun c hc => hcs c (List.mem_cons_of_mem _ (List.mem_cons_of_mem _ hc))
    have hbyte : (UInt8.ofNat (16 * value hi + value lo)).toNat = 16 * value hi + value lo :=
      UInt8.toNat_ofNat_of_lt' (by show _ < 256; omega)
    rw [decode, encode, List.flatMap_cons, byte_eq, hbyte, ← encode, hrest,
      show (16 * value hi + value lo) / 16 = value hi by omega,
      show (16 * value hi + value lo) % 16 = value lo by omega, hhi, hlo]
    rfl

/-- Letter case does not matter. -/
theorem decode_map_toLower : ∀ {cs : List Char}, (∀ c ∈ cs, isHexdigit c = true) →
    decode (cs.map Char.toLower) = decode cs
  | [], _ => rfl
  | [_], _ => rfl
  | hi :: lo :: rest, hcs => by
    obtain ⟨-, -, -, -, hhi, -⟩ := toDigit_of_isHexdigit (hcs hi List.mem_cons_self)
    obtain ⟨-, -, -, -, hlo, -⟩ :=
      toDigit_of_isHexdigit (hcs lo (List.mem_cons_of_mem _ List.mem_cons_self))
    simp only [List.map_cons, decode, hhi, hlo]
    rw [decode_map_toLower fun c hc => hcs c (List.mem_cons_of_mem _ (List.mem_cons_of_mem _ hc))]

end Hex
