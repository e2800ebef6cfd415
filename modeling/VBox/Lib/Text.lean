import Mathlib.Data.List.DropRight

/-!
# Lib.Text

Texts as lists of characters, with the operations of Rust's `str` that cut a text into lines and
words and read and print numbers.

* `lines_terminated`: the lines of a text in which every line is terminated.
* `splitWhitespace_pair`: the two words of a line of two words.
* `trimMatches_split`, `head?_trimMatches`, `getLast?_trimMatches`: what trimming takes and leaves.
* `parseU16_printU16`: a port that was printed is parsed again.
* `lastLine_append`: the last line of a text of whole lines.
-/

namespace Text

/-- The white space of Unicode (`char::is_whitespace`). -/
def isWhitespace (c : Char) : Bool :=
  (0x09 ≤ c.toNat && c.toNat ≤ 0x0d) || c.toNat == 0x20 || c.toNat == 0x85 || c.toNat == 0xa0 ||
    c.toNat == 0x1680 || (0x2000 ≤ c.toNat && c.toNat ≤ 0x200a) || c.toNat == 0x2028 ||
    c.toNat == 0x2029 || c.toNat == 0x202f || c.toNat == 0x205f || c.toNat == 0x3000

/-! ## Trimming -/

section Trim

variable {p : Char → Bool} {l : List Char}

/-- `str::trim_matches`. -/
def trimMatches (p : Char → Bool) (l : List Char) : List Char :=
  (l.dropWhile p).rdropWhile p

/-- `str::trim`. -/
def trim (l : List Char) : List Char :=
  trimMatches isWhitespace l

theorem trimMatches_subset : trimMatches p l ⊆ l := by
  intro c hc
  exact (List.dropWhile_sublist p).subset ((List.rdropWhile_prefix p _).subset hc)

theorem trimMatches_eq_nil_iff : trimMatches p l = [] ↔ ∀ c ∈ l, p c = true := by
  rw [trimMatches, List.rdropWhile_eq_nil_iff]
  constructor
  · intro h c hc
    rw [← List.takeWhile_append_dropWhile (p := p) (l := l), List.mem_append] at hc
    obtain hc | hc := hc
    · exact List.mem_takeWhile_imp hc
    · exact h c hc
  · intro h c hc
    exact h c ((List.dropWhile_sublist p).subset hc)

theorem trimMatches_cons {c : Char} (hc : p c = true) :
    trimMatches p (c :: l) = trimMatches p l := by
  rw [trimMatches, List.dropWhile_cons_of_pos hc, trimMatches]

/-- A text is not trimmed when neither of its ends matches. -/
theorem trimMatches_eq_self (hhead : ∀ c, l.head? = some c → p c = false)
    (hlast : ∀ c, l.getLast? = some c → p c = false) : trimMatches p l = l := by
  have hdrop : l.dropWhile p = l := by
    cases l with
    | nil => rfl
    | cons c l => rw [List.dropWhile_cons_of_neg (by simp [hhead c rfl])]
  rw [trimMatches, hdrop, List.rdropWhile_eq_self_iff]
  intro hne
  simp [hlast _ (List.getLast?_eq_some_getLast hne)]

theorem trimMatches_map (f : Char → Char) :
    trimMatches p (l.map f) = (trimMatches (p ∘ f) l).map f := by
  simp only [trimMatches, List.rdropWhile, List.dropWhile_map, ← List.map_reverse]

/-- What is trimmed off matches, at both ends. -/
theorem trimMatches_split : ∃ before after, l = before ++ (trimMatches p l ++ after) ∧
    (∀ c ∈ before, p c = true) ∧ ∀ c ∈ after, p c = true := by
  refine ⟨l.takeWhile p, (l.dropWhile p).rtakeWhile p, ?_, ?_, ?_⟩
  · rw [trimMatches, List.rdropWhile_append_rtakeWhile, List.takeWhile_append_dropWhile]
  · intro c hc
    exact List.mem_takeWhile_imp hc
  · intro c hc
    exact List.mem_rtakeWhile_imp hc

theorem head?_trimMatches {c : Char} (h : (trimMatches p l).head? = some c) : p c = false := by
  obtain ⟨after, hafter⟩ := List.rdropWhile_prefix p (l.dropWhile p)
  have hhead := List.head?_dropWhile_not p l
  rw [← hafter, List.head?_append, show (List.rdropWhile p _).head? = some c from h] at hhead
  simpa using hhead

theorem getLast?_trimMatches {c : Char} (h : (trimMatches p l).getLast? = some c) :
    p c = false := by
  have hne : trimMatches p l ≠ [] := by
    intro hnil
    rw [hnil] at h
    cases h
  have hlast : ¬p ((trimMatches p l).getLast hne) := List.rdropWhile_last_not p (l.dropWhile p) hne
  rw [List.getLast?_eq_some_getLast hne, Option.some.injEq] at h
  rw [h] at hlast
  simpa using hlast

theorem rdropWhile_append_of_forall {after : List Char} (h : ∀ c ∈ after, p c = true) :
    (l ++ after).rdropWhile p = l.rdropWhile p := by
  rw [List.rdropWhile, List.reverse_append, List.dropWhile_append_of_pos (by simpa using h),
    ← List.rdropWhile]

theorem trimMatches_idempotent : trimMatches p (trimMatches p l) = trimMatches p l :=
  trimMatches_eq_self (fun _ => head?_trimMatches) fun _ => getLast?_trimMatches

end Trim

/-! ## Cutting and joining -/

section Cut

variable {p : Char → Bool} {l w : List Char} {c : Char}

/-- A piece has no separator in it. -/
theorem not_of_mem_splitOnP (hw : w ∈ l.splitOnP p) (hc : c ∈ w) : p c = false := by
  induction l generalizing w with
  | nil =>
    obtain rfl := List.mem_singleton.1 hw
    cases hc
  | cons x l ih =>
    obtain ⟨piece, pieces, hpieces⟩ := List.exists_cons_of_ne_nil (List.splitOnP_ne_nil p l)
    rw [List.splitOnP_cons_eq_if_modifyHead, hpieces] at hw
    rw [hpieces] at ih
    by_cases hx : p x = true
    · rw [if_pos hx, List.mem_cons] at hw
      rcases hw with rfl | hw
      · cases hc
      · exact ih hw hc
    · rw [if_neg hx, List.modifyHead_cons, List.mem_cons] at hw
      rcases hw with rfl | hw
      · rcases List.mem_cons.1 hc with rfl | hc
        · simpa using hx
        · exact ih List.mem_cons_self hc
      · exact ih (List.mem_cons_of_mem piece hw) hc

theorem mem_intercalate_iff {sep : List Char} {words : List (List Char)} (hsep : c ∉ sep) :
    c ∈ sep.intercalate words ↔ ∃ w ∈ words, c ∈ w := by
  induction words with
  | nil => simp
  | cons w words ih =>
    cases words with
    | nil => simp
    | cons w' words =>
      rw [List.intercalate_cons_cons, List.mem_append, List.mem_append, ih, or_iff_left hsep]
      simp

end Cut

/-! ## Lines -/

/-- Drop one carriage return at the end. -/
def stripCr (l : List Char) : List Char :=
  if l.getLast? = some '\r' then l.dropLast else l

/-- `str::lines`. A carriage return is only dropped where the line is terminated, and nothing comes
after the last terminator. -/
def lines (text : List Char) : List (List Char) :=
  let pieces := text.splitOn '\n'
  pieces.dropLast.map stripCr ++ pieces.getLast?.toList.filter (· ≠ [])

theorem newline_not_mem_of_mem_lines {text line : List Char} (h : line ∈ lines text) :
    '\n' ∉ line := by
  have hpiece : ∀ piece ∈ text.splitOn '\n', '\n' ∉ piece := by
    intro piece hpiece hmem
    exact absurd (not_of_mem_splitOnP hpiece hmem) (by decide)
  rw [lines, List.mem_append, List.mem_map, List.mem_filter] at h
  rcases h with ⟨piece, hmem, rfl⟩ | ⟨hlast, -⟩
  · have hnot := hpiece piece ((List.dropLast_sublist _).subset hmem)
    rw [stripCr]
    split
    · exact fun h => hnot ((List.dropLast_sublist _).subset h)
    · exact hnot
  · exact hpiece line (List.mem_of_getLast? (Option.mem_toList.1 hlast))

theorem lines_nil : lines [] = [] := rfl

theorem lines_append {l : List Char} (hl : '\n' ∉ l) (rest : List Char) :
    lines (l ++ '\n' :: rest) = stripCr l :: lines rest := by
  have hcut : (l ++ '\n' :: rest).splitOn '\n' = l :: rest.splitOn '\n' :=
    List.splitOnP_append_cons_of_forall_mem (by simpa using fun c hc => ne_of_mem_of_not_mem hc hl)
      '\n' (by simp) rest
  obtain ⟨piece, pieces, hrest⟩ :=
    List.exists_cons_of_ne_nil (List.splitOnP_ne_nil (· == '\n') rest)
  simp only [lines, hcut]
  rw [show rest.splitOn '\n' = piece :: pieces from hrest]
  simp

/-- A text that is written line by line is read line by line. -/
theorem lines_terminated {α : Type} {f : α → List Char} {as : List α}
    (hf : ∀ a ∈ as, '\n' ∉ f a ∧ (f a).getLast? ≠ some '\r') :
    lines (as.flatMap fun a => f a ++ ['\n']) = as.map f := by
  induction as with
  | nil => exact lines_nil
  | cons a as ih =>
    obtain ⟨hnewline, hcr⟩ := hf a List.mem_cons_self
    rw [List.flatMap_cons, List.append_assoc, List.singleton_append, lines_append hnewline,
      ih fun b hb => hf b (List.mem_cons_of_mem a hb), stripCr, if_neg hcr, List.map_cons]

/-! ## Words -/

/-- `str::split_whitespace`. -/
def splitWhitespace (l : List Char) : List (List Char) :=
  (l.splitOnP isWhitespace).filter (· ≠ [])

theorem splitWhitespace_word {w : List Char} (hne : w ≠ [])
    (hw : ∀ c ∈ w, isWhitespace c = false) : splitWhitespace w = [w] := by
  rw [splitWhitespace, List.splitOnP_eq_singleton hw]
  simp [hne]

theorem splitWhitespace_append {sep : Char} (hsep : isWhitespace sep = true) (l rest : List Char) :
    splitWhitespace (l ++ sep :: rest) = splitWhitespace l ++ splitWhitespace rest := by
  rw [splitWhitespace, List.splitOnP_append_cons l rest hsep, List.filter_append]
  rfl

theorem splitWhitespace_pair {v w : List Char} {sep : Char} (hsep : isWhitespace sep = true)
    (hv : v ≠ []) (hvs : ∀ c ∈ v, isWhitespace c = false)
    (hw : w ≠ []) (hws : ∀ c ∈ w, isWhitespace c = false) :
    splitWhitespace (v ++ sep :: w) = [v, w] := by
  rw [splitWhitespace_append hsep, splitWhitespace_word hv hvs, splitWhitespace_word hw hws]
  rfl

/-! ## Numbers -/

/-- `u16::to_string`. -/
def printU16 (n : UInt16) : List Char :=
  Nat.toDigits 10 n.toNat

/-- The digits of a number that may have a sign before it. -/
def unsigned : List Char → List Char
  | '+' :: digits => digits
  | digits => digits

/-- `str::parse::<u16>`: digits, at least one, with a value that fits. -/
def parseU16 (l : List Char) : Option UInt16 :=
  let digits := unsigned l
  if digits ≠ [] ∧ digits.all Char.isDigit ∧ Nat.ofDigitChars 10 digits 0 < UInt16.size then
    some (UInt16.ofNat (Nat.ofDigitChars 10 digits 0))
  else
    none

theorem isDigit_of_mem_printU16 {n : UInt16} {c : Char} (hc : c ∈ printU16 n) :
    c.isDigit = true :=
  Nat.isDigit_of_mem_toDigits (by decide) (by decide) hc

theorem printU16_ne_nil (n : UInt16) : printU16 n ≠ [] :=
  Nat.toDigits_ne_nil

theorem isWhitespace_of_isAlphanum {c : Char} (hc : c.isAlphanum = true) :
    isWhitespace c = false := by
  have hrange : ∀ low high : UInt32, c.val ≥ low ∧ c.val ≤ high →
      low.toNat ≤ c.toNat ∧ c.toNat ≤ high.toNat := by
    rintro low high ⟨hlow, hhigh⟩
    exact ⟨UInt32.le_iff_toNat_le.1 hlow, UInt32.le_iff_toNat_le.1 hhigh⟩
  have hcases : (65 ≤ c.toNat ∧ c.toNat ≤ 90) ∨ (97 ≤ c.toNat ∧ c.toNat ≤ 122) ∨
      (48 ≤ c.toNat ∧ c.toNat ≤ 57) := by
    rcases (Bool.or_eq_true c.isAlpha c.isDigit).mp hc with halpha | hdigit
    · rcases (Bool.or_eq_true c.isUpper c.isLower).mp halpha with hupper | hlower
      · exact .inl (hrange 65 90 (of_decide_eq_true hupper))
      · obtain ⟨hlow, hhigh⟩ := (Bool.and_eq_true _ _).mp hlower
        exact .inr (.inl (hrange 97 122 ⟨of_decide_eq_true hlow, of_decide_eq_true hhigh⟩))
    · obtain ⟨hlow, hhigh⟩ := (Bool.and_eq_true _ _).mp hdigit
      exact .inr (.inr (hrange 48 57 ⟨of_decide_eq_true hlow, of_decide_eq_true hhigh⟩))
  simp only [isWhitespace, Bool.or_eq_false_iff, Bool.and_eq_false_iff, decide_eq_false_iff_not,
    beq_eq_false_iff_ne]
  omega

theorem isWhitespace_of_isDigit {c : Char} (hc : c.isDigit = true) : isWhitespace c = false :=
  isWhitespace_of_isAlphanum ((Bool.or_eq_true c.isAlpha c.isDigit).mpr (.inr hc))

theorem unsigned_printU16 (n : UInt16) : unsigned (printU16 n) = printU16 n := by
  cases hn : printU16 n with
  | nil => rfl
  | cons c digits =>
    have hmem : c ∈ printU16 n := by
      rw [hn]
      exact List.mem_cons_self
    have hc := isDigit_of_mem_printU16 hmem
    have hplus : c ≠ '+' := by
      rintro rfl
      exact absurd hc (by decide)
    rw [unsigned]
    intro digits' heq
    exact hplus (List.cons.inj heq).1

/-- A number that was printed is parsed again. -/
theorem parseU16_printU16 (n : UInt16) : parseU16 (printU16 n) = some n := by
  have hvalue : Nat.ofDigitChars 10 (printU16 n) 0 = n.toNat := Nat.ofDigitChars_ten_toDigits
  have hdigits : (printU16 n).all Char.isDigit = true :=
    List.all_eq_true.2 fun c hc => isDigit_of_mem_printU16 hc
  simp only [parseU16, unsigned_printU16, hvalue]
  rw [if_pos ⟨printU16_ne_nil n, hdigits, n.toNat_lt⟩, UInt16.ofNat_toNat]

/-- `u32::to_string`. -/
def printU32 (n : UInt32) : List Char :=
  Nat.toDigits 10 n.toNat

/-- `str::parse::<u32>`. -/
def parseU32 (l : List Char) : Option UInt32 :=
  let digits := unsigned l
  if digits ≠ [] ∧ digits.all Char.isDigit ∧ Nat.ofDigitChars 10 digits 0 < UInt32.size then
    some (UInt32.ofNat (Nat.ofDigitChars 10 digits 0))
  else
    none

/-- Digits have no sign before them. -/
theorem unsigned_of_isDigit {l : List Char} (h : ∀ c ∈ l, c.isDigit = true) : unsigned l = l := by
  cases l with
  | nil => rfl
  | cons c digits =>
    have hplus : c ≠ '+' := by
      rintro rfl
      exact absurd (h _ List.mem_cons_self) (by decide)
    rw [unsigned]
    intro digits' heq
    exact hplus (List.cons.inj heq).1

theorem isDigit_of_mem_printU32 {n : UInt32} {c : Char} (hc : c ∈ printU32 n) : c.isDigit = true :=
  Nat.isDigit_of_mem_toDigits (by decide) (by decide) hc

theorem printU32_ne_nil (n : UInt32) : printU32 n ≠ [] := Nat.toDigits_ne_nil

theorem parseU32_printU32 (n : UInt32) : parseU32 (printU32 n) = some n := by
  have hall : ∀ c ∈ printU32 n, c.isDigit = true := fun c hc => isDigit_of_mem_printU32 hc
  have hvalue : Nat.ofDigitChars 10 (printU32 n) 0 = n.toNat := Nat.ofDigitChars_ten_toDigits
  simp only [parseU32, unsigned_of_isDigit hall, hvalue]
  rw [if_pos ⟨printU32_ne_nil n, List.all_eq_true.2 hall, n.toNat_lt⟩, UInt32.ofNat_toNat]

/-! ## The last line -/

/-- The last line that is not blank, without blanks around it. -/
def lastLine (text : List Char) : Option (List Char) :=
  ((lines text).map trim).reverse.find? (· ≠ [])

theorem lines_terminated_append (l rest : List Char) :
    lines (l ++ '\n' :: rest) = (l.splitOn '\n').map stripCr ++ lines rest := by
  have hcut : (l ++ '\n' :: rest).splitOn '\n' = l.splitOn '\n' ++ rest.splitOn '\n' :=
    List.splitOnP_append_cons l rest (by simp)
  have hne : rest.splitOn '\n' ≠ [] := List.splitOnP_ne_nil (· == '\n') rest
  simp only [lines, hcut]
  rw [List.dropLast_append_of_ne_nil hne, List.getLast?_append_of_ne_nil _ hne, List.map_append,
    List.append_assoc]

/-- A line that stands at the end of a text of whole lines. -/
theorem lastLine_append {printed : List (List Char)} {line : List Char} (hne : line ≠ [])
    (hnewline : '\n' ∉ line) (htrim : trim line = line) :
    lastLine ((printed.flatMap fun l => l ++ ['\n']) ++ (line ++ ['\n'])) = some line := by
  have hcr : stripCr line = line := by
    rw [stripCr, if_neg]
    intro hlast
    have hwhite := getLast?_trimMatches (p := isWhitespace) (l := line) (c := '\r') (by
      rw [← hlast]
      exact congrArg List.getLast? htrim)
    exact absurd hwhite (by decide)
  have hline : lines (line ++ ['\n']) = [line] := by
    rw [lines_append hnewline, hcr, lines_nil]
  have hsplit : ∃ before, lines ((printed.flatMap fun l => l ++ ['\n']) ++ (line ++ ['\n'])) =
      before ++ [line] := by
    induction printed with
    | nil => exact ⟨[], by rw [List.flatMap_nil, List.nil_append, hline, List.nil_append]⟩
    | cons first printed ih =>
      obtain ⟨before, hbefore⟩ := ih
      refine ⟨(first.splitOn '\n').map stripCr ++ before, ?_⟩
      rw [List.flatMap_cons, List.append_assoc, List.append_assoc, List.singleton_append,
        lines_terminated_append, hbefore, List.append_assoc]
  obtain ⟨before, hbefore⟩ := hsplit
  rw [lastLine, hbefore, List.map_append, List.reverse_append, List.map_singleton,
    List.reverse_singleton, List.singleton_append, htrim, List.find?_cons_of_pos (by simpa using hne)]

end Text
