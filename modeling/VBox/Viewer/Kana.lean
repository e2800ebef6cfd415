import VBox.Viewer.Hangul

/-!
# Viewer.Kana

The composer of voiced kana (`crates/client/src/viewer/ime/kana.rs`). A kana is held back until the
next character: a voicing mark after it makes one character of the two, where there is one.

* `decomp`: a text with its voiced kana taken apart and its spacing marks made combining.
* `pushChars_spec`: a text keeps what was committed and what is held back, taken apart.
* `composed`: what a text becomes in the end, and how it depends on the kana held back before it.
-/

namespace VBox
namespace Kana

open Hangul (committed committed_append)

/-! ## Tables -/

/-- A kana, its voiced and its semi-voiced form. -/
def voicingTable : List (Char × Option Char × Option Char) :=
  [('う', some 'ゔ', none), ('か', some 'が', none), ('き', some 'ぎ', none), ('く', some 'ぐ', none),
    ('け', some 'げ', none), ('こ', some 'ご', none), ('さ', some 'ざ', none), ('し', some 'じ', none),
    ('す', some 'ず', none), ('せ', some 'ぜ', none), ('そ', some 'ぞ', none), ('た', some 'だ', none),
    ('ち', some 'ぢ', none), ('つ', some 'づ', none), ('て', some 'で', none), ('と', some 'ど', none),
    ('は', some 'ば', some 'ぱ'), ('ひ', some 'び', some 'ぴ'), ('ふ', some 'ぶ', some 'ぷ'),
    ('へ', some 'べ', some 'ぺ'), ('ほ', some 'ぼ', some 'ぽ'),
    ('ウ', some 'ヴ', none), ('カ', some 'ガ', none), ('キ', some 'ギ', none), ('ク', some 'グ', none),
    ('ケ', some 'ゲ', none), ('コ', some 'ゴ', none), ('サ', some 'ザ', none), ('シ', some 'ジ', none),
    ('ス', some 'ズ', none), ('セ', some 'ゼ', none), ('ソ', some 'ゾ', none), ('タ', some 'ダ', none),
    ('チ', some 'ヂ', none), ('ツ', some 'ヅ', none), ('テ', some 'デ', none), ('ト', some 'ド', none),
    ('ハ', some 'バ', some 'パ'), ('ヒ', some 'ビ', some 'ピ'), ('フ', some 'ブ', some 'プ'),
    ('ヘ', some 'ベ', some 'ペ'), ('ホ', some 'ボ', some 'ポ'), ('ワ', some 'ヷ', none),
    ('ヰ', some 'ヸ', none), ('ヱ', some 'ヹ', none), ('ヲ', some 'ヺ', none)]

def isVoicingMark (ch : Char) : Bool :=
  ch = '\u3099' || ch = '\u309a' || ch = '\u309b' || ch = '\u309c'

def isKanaBase (ch : Char) : Bool :=
  let code := ch.toNat
  let inHiragana := 0x3040 ≤ code && code ≤ 0x309f
  let inKatakana := 0x30a0 ≤ code && code ≤ 0x30ff
  let inPhoneticExt := 0x31f0 ≤ code && code ≤ 0x31ff
  (inHiragana || inKatakana || inPhoneticExt) && !isVoicingMark ch

def isKanaOrMark (ch : Char) : Bool :=
  isKanaBase ch || isVoicingMark ch

def applyMark (base mark : Char) : Option Char :=
  let wantSemi := mark = '\u309a' ∨ mark = '\u309c'
  match voicingTable.find? (·.1 = base) with
  | some entry => if wantSemi then entry.2.2 else entry.2.1
  | none => none

/-! ## The composer

Its state is the kana that is held back, if there is one. -/

def isEmpty (pending : Option Char) : Bool := pending.isNone

def canCompose (text : String) : Bool :=
  !text.toList.isEmpty && text.toList.all isKanaOrMark && text.toList.any isVoicingMark

def preeditText (pending : Option Char) : Option String := pending.map String.singleton

def pushChar (pending : Option Char) (ch : Char) : Option Char × List ComposerAction :=
  if isVoicingMark ch then
    match pending with
    | some base =>
      match applyMark base ch with
      | some out => (none, [.commit (String.singleton out)])
      | none => (none, [.commit (String.singleton base), .commit (String.singleton ch)])
    | none => (none, [.commit (String.singleton ch)])
  else
    let actions := (preeditText pending).toList.map ComposerAction.commit
    if isKanaBase ch then (some ch, actions)
    else (none, actions ++ [.commit (String.singleton ch)])

def pushChars (pending : Option Char) : List Char → Option Char × List ComposerAction
  | [] => (pending, [])
  | ch :: text =>
    let (pending, actions) := pushChar pending ch
    let (pending, actions') := pushChars pending text
    (pending, actions ++ actions')

/-- The preedit is set once, at the end of the text. -/
def pushText (pending : Option Char) (text : String) : Option Char × List ComposerAction :=
  let (pending, actions) := pushChars pending text.toList
  (pending, actions ++ [.preedit (preeditText pending)])

def flush (pending : Option Char) : Option Char × List ComposerAction :=
  match pending with
  | some ch => (none, [.commit (String.singleton ch), .preedit none])
  | none => (none, [])

def backspace (pending : Option Char) : Option Char × List ComposerAction :=
  match pending with
  | some _ => (none, [.preedit none])
  | none => (none, [])

/-! ## Texts taken apart -/

/-- The kana and the combining mark that a voiced kana of the table is made of. -/
def voicedParts (ch : Char) : Option (Char × Char) :=
  match voicingTable.find? (·.2.1 = some ch) with
  | some entry => some (entry.1, '\u3099')
  | none => (voicingTable.find? (·.2.2 = some ch)).map fun entry => (entry.1, '\u309a')

/-- A voiced kana is taken apart, and a spacing mark becomes the combining one. -/
def decompChar (ch : Char) : List Char :=
  match voicedParts ch with
  | some (base, mark) => [base, mark]
  | none => if ch = '\u309b' then ['\u3099'] else if ch = '\u309c' then ['\u309a'] else [ch]

def decomp (text : List Char) : List Char := text.flatMap decompChar

theorem decomp_append (xs ys : List Char) : decomp (xs ++ ys) = decomp xs ++ decomp ys :=
  List.flatMap_append

@[simp] theorem decomp_nil : decomp [] = [] := rfl

@[simp] theorem decomp_singleton (ch : Char) : decomp [ch] = decompChar ch :=
  List.flatMap_singleton _ _

/-! ## The table is taken apart again -/

/-- What was checked of a base and of what each mark makes of it. -/
theorem voicingTable_of_all (p : Char → Prop) (voiced semi : Char → Char → Prop) [DecidablePred p]
    [∀ base, DecidablePred (voiced base)] [∀ base, DecidablePred (semi base)]
    (hall : voicingTable.all (fun entry =>
      p entry.1 && (entry.2.1.all fun out => voiced entry.1 out) &&
        entry.2.2.all fun out => semi entry.1 out) = true)
    {entry : Char × Option Char × Option Char} (h : entry ∈ voicingTable) :
    p entry.1 ∧ (∀ out, entry.2.1 = some out → voiced entry.1 out) ∧
      ∀ out, entry.2.2 = some out → semi entry.1 out := by
  have hentry := List.all_eq_true.mp hall entry h
  simp only [Bool.and_eq_true, decide_eq_true_eq] at hentry
  obtain ⟨⟨hbase, hvoiced⟩, hsemi⟩ := hentry
  refine ⟨hbase, fun out hout => ?_, fun out hout => ?_⟩
  · simpa [hout] using hvoiced
  · simpa [hout] using hsemi

theorem voicingTable_decomp {entry : Char × Option Char × Option Char}
    (h : entry ∈ voicingTable) :
    decompChar entry.1 = [entry.1] ∧
      (∀ out, entry.2.1 = some out → decompChar out = [entry.1, '\u3099']) ∧
      ∀ out, entry.2.2 = some out → decompChar out = [entry.1, '\u309a'] := by
  exact voicingTable_of_all (fun base => decompChar base = [base])
    (fun base out => decompChar out = [base, '\u3099'])
    (fun base out => decompChar out = [base, '\u309a']) (by decide +kernel) h

/-- Where the parts of a voiced kana come from. -/
theorem voicedParts_eq_some {ch base mark : Char} (h : voicedParts ch = some (base, mark)) :
    ∃ entry ∈ voicingTable, entry.1 = base ∧
      ((entry.2.1 = some ch ∧ mark = '\u3099') ∨ (entry.2.2 = some ch ∧ mark = '\u309a')) := by
  unfold voicedParts at h
  split at h
  · rename_i entry hfind
    cases h
    exact ⟨entry, List.mem_of_find?_eq_some hfind, rfl, .inl ⟨by simpa using List.find?_some hfind, rfl⟩⟩
  · obtain ⟨entry, hfind, heq⟩ := Option.map_eq_some_iff.mp h
    cases heq
    exact ⟨entry, List.mem_of_find?_eq_some hfind, rfl, .inr ⟨by simpa using List.find?_some hfind, rfl⟩⟩

theorem isVoicingMark_iff {ch : Char} :
    isVoicingMark ch = true ↔
      ch = '\u3099' ∨ ch = '\u309a' ∨ ch = '\u309b' ∨ ch = '\u309c' := by
  simp [isVoicingMark, or_assoc]

/-- A pair and the character made of it are taken apart alike. -/
theorem decompChar_applyMark {base mark out : Char} (hmark : isVoicingMark mark = true)
    (h : applyMark base mark = some out) :
    decompChar out = decompChar base ++ decompChar mark := by
  unfold applyMark at h
  split at h
  · rename_i entry hfind
    obtain ⟨hbase, hvoiced, hsemi⟩ := voicingTable_decomp (List.mem_of_find?_eq_some hfind)
    have heq : entry.1 = base := by simpa using List.find?_some hfind
    rw [heq] at hbase hvoiced hsemi
    rw [hbase]
    obtain rfl | rfl | rfl | rfl := isVoicingMark_iff.mp hmark
    · exact hvoiced out h
    · exact hsemi out h
    · exact hvoiced out h
    · exact hsemi out h
  · cases h

/-! ## Nothing is lost -/

/-- What is held back is a kana, not a mark. -/
def Valid (pending : Option Char) : Prop := ∀ ch, pending = some ch → isKanaBase ch = true

theorem valid_none : Valid none := nofun

/-- A character keeps what was held back, and comes after it. -/
theorem pushChar_spec (pending : Option Char) (ch : Char) :
    decomp (committed (pushChar pending ch).2) ++ decomp (pushChar pending ch).1.toList =
      decomp pending.toList ++ decompChar ch := by
  unfold pushChar
  split
  · rename_i hmark
    split
    · rename_i base
      split
      · rename_i out hout
        simp [committed, Hangul.ComposerAction.committed, decompChar_applyMark hmark hout]
      · simp [committed, Hangul.ComposerAction.committed, decomp]
    · simp [committed, Hangul.ComposerAction.committed]
  · cases pending with
    | none => split <;> simp [preeditText, committed, Hangul.ComposerAction.committed]
    | some base => split <;> simp [preeditText, committed, Hangul.ComposerAction.committed, decomp]

theorem pushChar_valid {pending : Option Char} (ch : Char) : Valid (pushChar pending ch).1 := by
  unfold pushChar
  split
  · split
    · split <;> exact valid_none
    · exact valid_none
  · split
    · rename_i hbase
      rintro _ ⟨⟩
      exact hbase
    · exact valid_none

theorem pushChars_spec (pending : Option Char) (text : List Char) :
    decomp (committed (pushChars pending text).2) ++ decomp (pushChars pending text).1.toList =
      decomp pending.toList ++ decomp text := by
  induction text generalizing pending with
  | nil => simp [pushChars, committed]
  | cons ch text ih =>
    calc decomp (committed (pushChars pending (ch :: text)).2) ++
          decomp (pushChars pending (ch :: text)).1.toList
        = decomp (committed (pushChar pending ch).2) ++
            (decomp (committed (pushChars (pushChar pending ch).1 text).2) ++
              decomp (pushChars (pushChar pending ch).1 text).1.toList) := by
          rw [pushChars, committed_append, decomp_append, List.append_assoc]
      _ = (decomp (committed (pushChar pending ch).2) ++ decomp (pushChar pending ch).1.toList) ++
            decomp text := by
          rw [ih, List.append_assoc]
      _ = decomp pending.toList ++ decomp (ch :: text) := by
          rw [pushChar_spec, List.append_assoc]
          rfl

theorem pushChars_valid {pending : Option Char} (hp : Valid pending) (text : List Char) :
    Valid (pushChars pending text).1 := by
  induction text generalizing pending with
  | nil => exact hp
  | cons ch text ih => exact ih (pushChar_valid ch)

/-- Characters only commit. -/
theorem pushChars_commits (pending : Option Char) (chars : List Char) (text : Option String) :
    ComposerAction.preedit text ∉ (pushChars pending chars).2 := by
  induction chars generalizing pending with
  | nil => exact List.not_mem_nil
  | cons ch chars ih =>
    have hchar : ComposerAction.preedit text ∉ (pushChar pending ch).2 := by
      unfold pushChar
      split
      · split
        · split <;> simp
        · simp
      · split <;> simp
    rw [pushChars, List.mem_append, not_or]
    exact ⟨hchar, ih _⟩

theorem committed_flush (pending : Option Char) :
    committed (flush pending).2 = pending.toList := by
  cases pending <;> simp [flush, committed, Hangul.ComposerAction.committed]

/-! ## What a text becomes -/

/-- What is committed of a text in the end, with the kana that was held back in front of it. -/
def composed (pending : Option Char) (text : List Char) : List Char :=
  committed (pushChars pending text).2 ++ (pushChars pending text).1.toList

theorem pushChars_append (pending : Option Char) (xs ys : List Char) :
    pushChars pending (xs ++ ys) =
      ((pushChars (pushChars pending xs).1 ys).1,
        (pushChars pending xs).2 ++ (pushChars (pushChars pending xs).1 ys).2) := by
  induction xs generalizing pending with
  | nil => rfl
  | cons ch xs ih => simp [pushChars, ih]

theorem composed_append (pending : Option Char) (xs ys : List Char) :
    composed pending (xs ++ ys) =
      committed (pushChars pending xs).2 ++ composed (pushChars pending xs).1 ys := by
  simp only [composed, pushChars_append, committed_append, List.append_assoc]

theorem composed_cons (pending : Option Char) (ch : Char) (text : List Char) :
    composed pending (ch :: text) =
      committed (pushChar pending ch).2 ++ composed (pushChar pending ch).1 text := by
  simp only [composed, pushChars, committed_append, List.append_assoc]

theorem pushChar_of_not_mark {ch : Char} (h : ¬ isVoicingMark ch = true) (pending : Option Char) :
    pushChar pending ch =
      let actions := (preeditText pending).toList.map ComposerAction.commit
      if isKanaBase ch then (some ch, actions)
      else (none, actions ++ [.commit (String.singleton ch)]) := by
  unfold pushChar
  exact if_neg h

/-- With nothing held back, a mark stays what it is. -/
theorem composed_none_mark {mark : Char} (hmark : isVoicingMark mark = true) (text : List Char) :
    composed none (mark :: text) = mark :: composed none text := by
  rw [composed_cons, pushChar, if_pos hmark]
  simp [committed, Hangul.ComposerAction.committed]

theorem composed_pair {base mark out : Char} (hmark : isVoicingMark mark = true)
    (h : applyMark base mark = some out) (text : List Char) :
    composed (some base) (mark :: text) = out :: composed none text := by
  rw [composed_cons, pushChar, if_pos hmark]
  simp [h, committed, Hangul.ComposerAction.committed]

/-- `text` begins with a mark that changes `base`. -/
def pairs (base : Char) (text : List Char) : Bool :=
  text.head?.any fun mark => isVoicingMark mark && (applyMark base mark).isSome

theorem pairs_cons {base ch : Char} {text : List Char} :
    pairs base (ch :: text) = true ↔
      isVoicingMark ch = true ∧ ∃ out, applyMark base ch = some out := by
  simp [pairs, Option.isSome_iff_exists]

/-- A kana that is held back changes nothing in a text that does not begin with its mark. -/
theorem composed_some {base : Char} {text : List Char} (h : pairs base text = false) :
    composed (some base) text = base :: composed none text := by
  cases text with
  | nil => rfl
  | cons ch text =>
    by_cases hmark : isVoicingMark ch = true
    · have hnone : applyMark base ch = none := by
        rw [Option.eq_none_iff_forall_ne_some]
        intro out hout
        rw [pairs_cons.mpr ⟨hmark, out, hout⟩] at h
        cases h
      rw [composed_none_mark hmark, composed_cons, pushChar, if_pos hmark]
      simp [hnone, committed, Hangul.ComposerAction.committed]
    · rw [composed_cons, composed_cons, pushChar_of_not_mark hmark, pushChar_of_not_mark hmark]
      split <;> simp [preeditText, committed, Hangul.ComposerAction.committed]

/-- Kana without a mark become themselves, and the last of them is held back. -/
theorem pushChars_bases (pending : Option Char) {text : List Char} {last : Char}
    (hbase : ∀ ch ∈ text ++ [last], isKanaBase ch = true) :
    (pushChars pending (text ++ [last])).1 = some last ∧
      committed (pushChars pending (text ++ [last])).2 = pending.toList ++ text := by
  have hpush : ∀ (pending : Option Char) ch, isKanaBase ch = true →
      pushChar pending ch = (some ch, (preeditText pending).toList.map ComposerAction.commit) := by
    intro pending ch hch
    have hmark : ¬ isVoicingMark ch = true := by
      intro hmark
      simp [isKanaBase, hmark] at hch
    rw [pushChar_of_not_mark hmark]
    exact if_pos hch
  have hcommit : ∀ pending : Option Char,
      committed ((preeditText pending).toList.map ComposerAction.commit) = pending.toList := by
    intro pending
    cases pending <;> simp [preeditText, committed, Hangul.ComposerAction.committed]
  induction text generalizing pending with
  | nil =>
    simp [pushChars, hpush pending last (hbase last (by simp)), hcommit]
  | cons ch text ih =>
    rw [List.cons_append, pushChars, hpush pending ch (hbase ch (by simp))]
    obtain ⟨hlast, htext⟩ := ih (some ch) fun ch' hch' => hbase ch' (by simp at hch' ⊢; tauto)
    refine ⟨hlast, ?_⟩
    rw [committed_append, hcommit, htext]
    rfl

end Kana
end VBox
