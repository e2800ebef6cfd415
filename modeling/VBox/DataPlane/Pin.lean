import VBox.Clipboard.Bridge
import VBox.Lib.Hex
import VBox.Viewer.Frame

/-!
# DataPlane.Pin

The pin of the QUIC certificate. The daemon prints the digest of its certificate (`sha256_hex` in
`crates/controld/src/state.rs`), and the viewer parses what it was given (`parse_sha256_hex` in
`crates/client/src/data_plane/quic.rs`).

* `parseSha256Hex_digits`: a text with 64 digits is accepted, and its digits are read in pairs.
* `pin_codec`: which texts are accepted, and which of them are the same digest.
-/

namespace VBox

/-- `[u8; 32]` -/
abbrev Digest := Vector UInt8 32

inductive PinError where
  | msg (text : String)
  | panicked (fault : Fault)
  deriving DecidableEq

/-- The text that `sha256_hex` writes of a digest, two lowercase digits for each byte. -/
def writeHex (digest : Digest) : String := String.ofList (Hex.encode digest.toList)

/-- `input.chars().filter(|ch| *ch != ':')` -/
def withoutColons (input : String) : List Char := input.toList.filter (· ≠ ':')

/-- The loop over `chunks_exact(2).enumerate()`, from chunk `idx` on. -/
def parsePairs (idx : Nat) (out : Digest) : List UInt8 → Except PinError Digest
  | b0 :: b1 :: rest =>
    match fromUtf8 [b0, b1] with
    | none => .error (.msg "parse QUIC certificate pin hex")
    | some hex =>
      match Hex.parseByte hex.toList with
      | none => .error (.msg "parse QUIC certificate pin byte")
      | some byte =>
        if idx < 32 then parsePairs (idx + 1) (out.setIfInBounds idx byte) rest
        else .error (.panicked .outOfBounds)
  | _ => .ok out

def parseSha256Hex (input : String) : Except PinError Digest :=
  let compact := String.ofList (withoutColons input)
  if compact.utf8ByteSize ≠ 64 ∨ ¬ compact.toList.all Hex.isHexdigit then
    .error (.msg "QUIC certificate pin must be 64 lowercase/uppercase hex characters")
  else parsePairs 0 (Vector.replicate 32 0) (utf8 compact)

/-! ## The bytes of ASCII characters -/

theorem utf8_ofList {cs : List Char} (h : ∀ c ∈ cs, c.toNat < 128) :
    utf8 (String.ofList cs) = cs.map fun c => c.val.toUInt8 := by
  have hbytes : utf8 (String.ofList cs) = cs.flatMap String.utf8EncodeChar := by
    rw [utf8, String.toByteArray_ofList, List.utf8Encode]
    simp
  rw [hbytes]
  clear hbytes
  induction cs with
  | nil => rfl
  | cons c cs ih =>
    have hsize : c.utf8Size = 1 := by
      rw [Char.utf8Size_eq_one_iff, UInt32.le_iff_toNat_le]
      exact Nat.le_of_lt_succ (h c List.mem_cons_self)
    rw [List.flatMap_cons, String.utf8EncodeChar_eq_singleton hsize,
      ih fun c' hc' => h c' (List.mem_cons_of_mem _ hc')]
    rfl

theorem utf8ByteSize_ofList {cs : List Char} (h : ∀ c ∈ cs, c.toNat < 128) :
    (String.ofList cs).utf8ByteSize = cs.length := by
  have hlen : (utf8 (String.ofList cs)).length = cs.length := by
    rw [utf8_ofList h, List.length_map]
  rwa [utf8, Array.length_toList] at hlen

theorem fromUtf8_pair {hi lo : Char} (hhi : hi.toNat < 128) (hlo : lo.toNat < 128) :
    fromUtf8 [hi.val.toUInt8, lo.val.toUInt8] = some (String.ofList [hi, lo]) := by
  have hbytes : utf8 (String.ofList [hi, lo]) = [hi.val.toUInt8, lo.val.toUInt8] := by
    refine utf8_ofList fun c hc => ?_
    obtain rfl | hc := List.mem_cons.1 hc
    · exact hhi
    · rwa [List.mem_singleton.1 hc]
  rw [← hbytes, fromUtf8_utf8]

/-! ## Parsing -/

/-- The loop writes the bytes of the digits from place `idx` on. -/
theorem parsePairs_digits : ∀ {cs : List Char} (idx : Nat) (out : Digest),
    (∀ c ∈ cs, Hex.isHexdigit c = true) → 2 * idx + cs.length = 64 →
    ∃ digest, parsePairs idx out (cs.map fun c => c.val.toUInt8) = .ok digest ∧
      digest.toList = out.toList.take idx ++ Hex.decode cs
  | [], idx, out, _, hlen => by
    refine ⟨out, rfl, ?_⟩
    rw [List.length_nil] at hlen
    have hall : out.toList.take idx = out.toList :=
      List.take_of_length_le (by rw [Vector.length_toList]; omega)
    rw [hall]
    exact (List.append_nil _).symm
  | [_], _, _, _, hlen => by
    rw [List.length_singleton] at hlen
    omega
  | hi :: lo :: rest, idx, out, hcs, hlen => by
    have hhi := hcs hi List.mem_cons_self
    have hlo := hcs lo (List.mem_cons_of_mem _ List.mem_cons_self)
    rw [List.length_cons, List.length_cons] at hlen
    have hidx : idx < 32 := by omega
    obtain ⟨digest, hrest, hdigest⟩ := parsePairs_digits (idx + 1)
      (out.setIfInBounds idx (UInt8.ofNat (16 * Hex.value hi + Hex.value lo)))
      (fun c hc => hcs c (List.mem_cons_of_mem _ (List.mem_cons_of_mem _ hc))) (by omega)
    refine ⟨digest, ?_, ?_⟩
    · rw [List.map_cons, List.map_cons, parsePairs,
        fromUtf8_pair (Hex.toNat_lt_of_isHexdigit hhi) (Hex.toNat_lt_of_isHexdigit hlo)]
      simp only [String.toList_ofList, Hex.parseByte_pair hhi hlo]
      rw [if_pos hidx, hrest]
    · have hplace : idx < out.toList.length := by rwa [Vector.length_toList]
      rw [hdigest, Vector.toList_setIfInBounds, List.take_add_one, List.take_set_of_le (Nat.le_refl _),
        List.getElem?_set_self hplace, Hex.decode, List.append_assoc]
      rfl

theorem parseSha256Hex_digits {input : String} (hlen : (withoutColons input).length = 64)
    (hcs : ∀ c ∈ withoutColons input, Hex.isHexdigit c = true) :
    ∃ digest, parseSha256Hex input = .ok digest ∧
      digest.toList = Hex.decode (withoutColons input) := by
  have hascii : ∀ c ∈ withoutColons input, c.toNat < 128 :=
    fun c hc => Hex.toNat_lt_of_isHexdigit (hcs c hc)
  obtain ⟨digest, hdigest, hlist⟩ :=
    parsePairs_digits 0 (Vector.replicate 32 0) hcs (by omega)
  refine ⟨digest, ?_, hlist⟩
  simp only [parseSha256Hex, String.toList_ofList, List.all_eq_true]
  rw [utf8ByteSize_ofList hascii, utf8_ofList hascii, if_neg, hdigest]
  rintro (hne | hne)
  · exact hne hlen
  · exact hne hcs

theorem digits_of_parseSha256Hex {input : String} {digest : Digest}
    (h : parseSha256Hex input = .ok digest) :
    (withoutColons input).length = 64 ∧ ∀ c ∈ withoutColons input, Hex.isHexdigit c = true := by
  simp only [parseSha256Hex, String.toList_ofList, List.all_eq_true] at h
  split at h
  · cases h
  rename_i hok
  rw [not_or, not_not, not_not] at hok
  obtain ⟨hsize, hcs⟩ := hok
  rw [utf8ByteSize_ofList fun c hc => Hex.toNat_lt_of_isHexdigit (hcs c hc)] at hsize
  exact ⟨hsize, hcs⟩

/-- The digits of an accepted text are read in pairs. -/
theorem decode_of_parseSha256Hex {input : String} {digest : Digest}
    (h : parseSha256Hex input = .ok digest) :
    digest.toList = Hex.decode (withoutColons input) := by
  obtain ⟨hlen, hcs⟩ := digits_of_parseSha256Hex h
  obtain ⟨digest', h', hlist⟩ := parseSha256Hex_digits hlen hcs
  rw [h] at h'
  cases h'
  exact hlist

/-! ## Spellings -/

/-- `s` is `l` with some letters in the other case and with colons anywhere. -/
inductive Respelled : List Char → List Char → Prop where
  | nil : Respelled [] []
  | colon {l s} : Respelled l s → Respelled l (':' :: s)
  | letter {c c' l s} : c' = c ∨ c' = c.toLower ∨ c' = c.toUpper → Respelled l s →
      Respelled (c :: l) (c' :: s)

/-- The other case of a lowercase digit is the same digit. -/
theorem otherCase_spec {c c' : Char} (hc : Hex.isHexdigit c = true) (hlower : c.toLower = c)
    (h : c' = c ∨ c' = c.toLower ∨ c' = c.toUpper) :
    Hex.isHexdigit c' = true ∧ c'.toLower = c ∧ c' ≠ ':' := by
  have hall : ∀ n < 128, Hex.isHexdigit (Char.ofNat n) = true →
      (Char.ofNat n ≠ ':' ∧ Hex.isHexdigit (Char.ofNat n).toUpper = true ∧
        (Char.ofNat n).toUpper.toLower = (Char.ofNat n).toLower ∧ (Char.ofNat n).toUpper ≠ ':') := by
    decide
  obtain ⟨hcolon, hupper, hback, hcolon'⟩ := Hex.ascii_forall
    (P := fun c => Hex.isHexdigit c = true → c ≠ ':' ∧ Hex.isHexdigit c.toUpper = true ∧
      c.toUpper.toLower = c.toLower ∧ c.toUpper ≠ ':') hall (Hex.toNat_lt_of_isHexdigit hc) hc
  obtain rfl | rfl | rfl := h
  · exact ⟨hc, hlower, hcolon⟩
  · rw [hlower]
    exact ⟨hc, hlower, hcolon⟩
  · exact ⟨hupper, hback.trans hlower, hcolon'⟩

theorem Respelled.withoutColons {l s : List Char} (h : Respelled l s)
    (hl : ∀ c ∈ l, Hex.isHexdigit c = true ∧ c.toLower = c) :
    (s.filter (· ≠ ':')).map Char.toLower = l ∧
      ∀ c ∈ s.filter (· ≠ ':'), Hex.isHexdigit c = true := by
  induction h with
  | nil => exact ⟨rfl, fun _ hc => (nomatch hc)⟩
  | colon _ ih =>
    rw [List.filter_cons_of_neg (by simp)]
    exact ih hl
  | @letter c c' l s hcase _ ih =>
    obtain ⟨hc, hlower⟩ := hl c List.mem_cons_self
    obtain ⟨hhex, hback, hcolon⟩ := otherCase_spec hc hlower hcase
    obtain ⟨hmap, hall⟩ := ih fun d hd => hl d (List.mem_cons_of_mem _ hd)
    rw [List.filter_cons_of_pos (by simpa using hcolon)]
    refine ⟨by rw [List.map_cons, hback, hmap], fun d hd => ?_⟩
    obtain rfl | hd := List.mem_cons.1 hd
    · exact hhex
    · exact hall d hd

/-- A pin is accepted if it has 64 digits besides its colons, what the daemon prints is accepted in
any spelling, and two pins are the same digest if only their spellings differ. -/
theorem pin_codec :
    (∀ input, (∃ digest, parseSha256Hex input = .ok digest) ↔
      (withoutColons input).length = 64 ∧ ∀ c ∈ withoutColons input, Hex.isHexdigit c = true) ∧
    (∀ (digest : Digest) (input : String), Respelled (writeHex digest).toList input.toList →
      parseSha256Hex input = .ok digest) ∧
    ∀ input input' digest digest', parseSha256Hex input = .ok digest →
      parseSha256Hex input' = .ok digest' →
      (digest = digest' ↔
        (withoutColons input).map Char.toLower = (withoutColons input').map Char.toLower) := by
  refine ⟨fun input => ?_, fun digest input h => ?_, fun input input' digest digest' h h' => ?_⟩
  · constructor
    · rintro ⟨digest, h⟩
      exact digits_of_parseSha256Hex h
    · rintro ⟨hlen, hcs⟩
      obtain ⟨digest, h, -⟩ := parseSha256Hex_digits hlen hcs
      exact ⟨digest, h⟩
  · rw [writeHex, String.toList_ofList] at h
    obtain ⟨hmap, hcs⟩ := h.withoutColons fun c hc => Hex.isHexdigit_of_mem_encode hc
    have hlen := congrArg List.length hmap
    rw [List.length_map, Hex.encode_length, Vector.length_toList] at hlen
    obtain ⟨parsed, hparsed, hlist⟩ := parseSha256Hex_digits hlen hcs
    have hsame : parsed.toList = digest.toList := by
      rw [hlist, withoutColons, ← Hex.decode_map_toLower hcs, hmap, Hex.decode_encode]
    rw [hparsed, Vector.toList_inj.1 hsame]
  · obtain ⟨hlen, hcs⟩ := digits_of_parseSha256Hex h
    obtain ⟨hlen', hcs'⟩ := digits_of_parseSha256Hex h'
    rw [← Vector.toList_inj, decode_of_parseSha256Hex h, decode_of_parseSha256Hex h',
      ← Hex.encode_decode (by rw [hlen]) hcs, ← Hex.encode_decode (by rw [hlen']) hcs']
    constructor
    · intro heq
      rw [heq]
    · intro heq
      have hback := congrArg Hex.decode heq
      rwa [Hex.decode_encode, Hex.decode_encode] at hback

end VBox
