import VBox.Lib.Transducer
import VBox.Viewer.Frame
import VBox.Viewer.Keyboard

/-!
# Viewer.Hangul

The composer of Hangul syllables (`crates/client/src/viewer/ime/hangul.rs`). Jamo come in one by
one; an unfinished syllable is held back, and what can no longer change is committed.

Syllables are `0xAC00 + (l * 21 + v) * 28 + t`, by the indices of the initial consonant, the vowel
and the final consonant, where `t = 0` is no final.

* `decomp`: a text taken apart into simple jamo.
* `pushChar_spec`: a character keeps what was committed and what is held back, taken apart.
* `committed_lossless`: so does a whole text.
-/

namespace VBox
namespace Hangul

/-! ## Tables -/

def initials : List Char :=
  ['ㄱ', 'ㄲ', 'ㄴ', 'ㄷ', 'ㄸ', 'ㄹ', 'ㅁ', 'ㅂ', 'ㅃ', 'ㅅ', 'ㅆ', 'ㅇ', 'ㅈ', 'ㅉ', 'ㅊ', 'ㅋ', 'ㅌ',
    'ㅍ', 'ㅎ']

def vowels : List Char :=
  ['ㅏ', 'ㅐ', 'ㅑ', 'ㅒ', 'ㅓ', 'ㅔ', 'ㅕ', 'ㅖ', 'ㅗ', 'ㅘ', 'ㅙ', 'ㅚ', 'ㅛ', 'ㅜ', 'ㅝ', 'ㅞ', 'ㅟ',
    'ㅠ', 'ㅡ', 'ㅢ', 'ㅣ']

def isCompatJamo (ch : Char) : Bool :=
  0x3130 ≤ ch.toNat && ch.toNat ≤ 0x318f

def initialIndex (ch : Char) : Option Nat :=
  match ch with
  | 'ㄱ' => some 0
  | 'ㄲ' => some 1
  | 'ㄴ' => some 2
  | 'ㄷ' => some 3
  | 'ㄸ' => some 4
  | 'ㄹ' => some 5
  | 'ㅁ' => some 6
  | 'ㅂ' => some 7
  | 'ㅃ' => some 8
  | 'ㅅ' => some 9
  | 'ㅆ' => some 10
  | 'ㅇ' => some 11
  | 'ㅈ' => some 12
  | 'ㅉ' => some 13
  | 'ㅊ' => some 14
  | 'ㅋ' => some 15
  | 'ㅌ' => some 16
  | 'ㅍ' => some 17
  | 'ㅎ' => some 18
  | _ => none

/-- Beyond the table the access panics. -/
def initialChar (l : Nat) : Except Fault Char := index initials l

def vowelIndex (ch : Char) : Option Nat :=
  match ch with
  | 'ㅏ' => some 0
  | 'ㅐ' => some 1
  | 'ㅑ' => some 2
  | 'ㅒ' => some 3
  | 'ㅓ' => some 4
  | 'ㅔ' => some 5
  | 'ㅕ' => some 6
  | 'ㅖ' => some 7
  | 'ㅗ' => some 8
  | 'ㅘ' => some 9
  | 'ㅙ' => some 10
  | 'ㅚ' => some 11
  | 'ㅛ' => some 12
  | 'ㅜ' => some 13
  | 'ㅝ' => some 14
  | 'ㅞ' => some 15
  | 'ㅟ' => some 16
  | 'ㅠ' => some 17
  | 'ㅡ' => some 18
  | 'ㅢ' => some 19
  | 'ㅣ' => some 20
  | _ => none

def vowelChar (v : Nat) : Except Fault Char := index vowels v

def finalIndex (ch : Char) : Option Nat :=
  match ch with
  | 'ㄱ' => some 1
  | 'ㄲ' => some 2
  | 'ㄳ' => some 3
  | 'ㄴ' => some 4
  | 'ㄵ' => some 5
  | 'ㄶ' => some 6
  | 'ㄷ' => some 7
  | 'ㄹ' => some 8
  | 'ㄺ' => some 9
  | 'ㄻ' => some 10
  | 'ㄼ' => some 11
  | 'ㄽ' => some 12
  | 'ㄾ' => some 13
  | 'ㄿ' => some 14
  | 'ㅀ' => some 15
  | 'ㅁ' => some 16
  | 'ㅂ' => some 17
  | 'ㅄ' => some 18
  | 'ㅅ' => some 19
  | 'ㅆ' => some 20
  | 'ㅇ' => some 21
  | 'ㅈ' => some 22
  | 'ㅊ' => some 23
  | 'ㅋ' => some 24
  | 'ㅌ' => some 25
  | 'ㅍ' => some 26
  | 'ㅎ' => some 27
  | _ => none

def composeSyllable (l v t : Nat) : String :=
  let code := 0xac00 + ((l * 21 + v) * 28 + t)
  String.singleton (if code.isValidChar then Char.ofNat code else '\ufffd')

def combineVowel (left right : Nat) : Option Nat :=
  match left, right with
  | 8, 0 => some 9
  | 8, 1 => some 10
  | 8, 20 => some 11
  | 13, 4 => some 14
  | 13, 5 => some 15
  | 13, 20 => some 16
  | 18, 20 => some 19
  | _, _ => none

def combineFinal (left right : Nat) : Option Nat :=
  match left, right with
  | 1, 19 => some 3
  | 4, 22 => some 5
  | 4, 27 => some 6
  | 8, 1 => some 9
  | 8, 16 => some 10
  | 8, 17 => some 11
  | 8, 19 => some 12
  | 8, 25 => some 13
  | 8, 26 => some 14
  | 8, 27 => some 15
  | 17, 19 => some 18
  | _, _ => none

def finalToInitial (t : Nat) : Nat :=
  match t with
  | 1 => 0
  | 2 => 1
  | 4 => 2
  | 7 => 3
  | 8 => 5
  | 16 => 6
  | 17 => 7
  | 19 => 9
  | 20 => 10
  | 21 => 11
  | 22 => 12
  | 23 => 14
  | 24 => 15
  | 25 => 16
  | 26 => 17
  | 27 => 18
  | _ => 11

/-- The final that stays, and the initial that moves on to the next syllable. -/
def splitFinal (t : Nat) : Nat × Nat :=
  match t with
  | 3 => (1, 9)
  | 5 => (4, 12)
  | 6 => (4, 18)
  | 9 => (8, 0)
  | 10 => (8, 6)
  | 11 => (8, 7)
  | 12 => (8, 9)
  | 13 => (8, 16)
  | 14 => (8, 17)
  | 15 => (8, 18)
  | 18 => (17, 9)
  | _ => (0, finalToInitial t)

/-! ## The composer -/

/-- What is held back. -/
inductive Pending where
  | none
  | initial (l : Nat)
  | vowel (v : Nat)
  | syllable (l v t : Nat)
  deriving DecidableEq

def isEmpty (p : Pending) : Bool := p = .none

def canCompose (text : String) : Bool :=
  !text.toList.isEmpty && text.toList.all isCompatJamo

def pendingText : Pending → Except Fault (Option String)
  | .none => .ok none
  | .initial l => do
    let ch ← initialChar l
    return some (String.singleton ch)
  | .vowel v => do
    let ch ← vowelChar v
    return some (String.singleton ch)
  | .syllable l v t => .ok (some (composeSyllable l v t))

/-- What was held back is committed, if there was anything. -/
def commitPending (p : Pending) : Except Fault (List ComposerAction) := do
  let text ← pendingText p
  return text.toList.map ComposerAction.commit

def pushConsonant (p : Pending) (ch : Char) (lNew : Nat) :
    Except Fault (Pending × List ComposerAction) :=
  match p with
  | .none => .ok (.initial lNew, [])
  | .initial _ | .vowel _ => do
    let actions ← commitPending p
    return (.initial lNew, actions)
  | .syllable l v 0 =>
    match finalIndex ch with
    | some tNew => .ok (.syllable l v tNew, [])
    | none => do
      let actions ← commitPending p
      return (.initial lNew, actions)
  | .syllable l v t =>
    match (finalIndex ch).bind (combineFinal t) with
    | some tNew => .ok (.syllable l v tNew, [])
    | none => do
      let actions ← commitPending p
      return (.initial lNew, actions)

def pushVowel (p : Pending) (vNew : Nat) : Except Fault (Pending × List ComposerAction) :=
  match p with
  | .none => .ok (.vowel vNew, [])
  | .initial l => .ok (.syllable l vNew 0, [])
  | .vowel v =>
    match combineVowel v vNew with
    | some v => .ok (.vowel v, [])
    | none => do
      let actions ← commitPending p
      return (.vowel vNew, actions)
  | .syllable l v 0 =>
    match combineVowel v vNew with
    | some v => .ok (.syllable l v 0, [])
    | none => do
      let actions ← commitPending p
      return (.vowel vNew, actions)
  | .syllable l v t =>
    let (remainingT, movedL) := splitFinal t
    .ok (.syllable movedL vNew 0, [.commit (composeSyllable l v remainingT)])

/-- What a character does, but for the preedit. -/
def pushJamo (p : Pending) (ch : Char) : Except Fault (Pending × List ComposerAction) :=
  match initialIndex ch with
  | some l => pushConsonant p ch l
  | none =>
    match vowelIndex ch with
    | some v => pushVowel p v
    | none => do
      let actions ← commitPending p
      return (.none, actions ++ [.commit (String.singleton ch)])

def pushChar (p : Pending) (ch : Char) : Except Fault (Pending × List ComposerAction) := do
  let (p', actions) ← pushJamo p ch
  let preedit ← pendingText p'
  return (p', actions ++ [.preedit preedit])

def pushChars (p : Pending) : List Char → Except Fault (Pending × List ComposerAction)
  | [] => .ok (p, [])
  | ch :: text => do
    let (p, actions) ← pushChar p ch
    let (p, actions') ← pushChars p text
    return (p, actions ++ actions')

def pushText (p : Pending) (text : String) : Except Fault (Pending × List ComposerAction) :=
  pushChars p text.toList

def flush (p : Pending) : Except Fault (Pending × List ComposerAction) := do
  let text ← pendingText p
  match text with
  | some text => return (.none, [.commit text, .preedit none])
  | none => return (.none, [])

def backspace (p : Pending) : Except Fault (Pending × List ComposerAction) :=
  match p with
  | .none => .ok (.none, [])
  | .initial _ | .vowel _ => .ok (.none, [.preedit none])
  | .syllable l v t => do
    let p' := if t ≠ 0 then Pending.syllable l v 0 else .initial l
    let preedit ← pendingText p'
    return (p', [.preedit preedit])

/-! ## Texts taken apart -/

/-- The two vowels that `combineVowel` makes a vowel of. -/
def vowelPair : Nat → Option (Nat × Nat)
  | 9 => some (8, 0)
  | 10 => some (8, 1)
  | 11 => some (8, 20)
  | 14 => some (13, 4)
  | 15 => some (13, 5)
  | 16 => some (13, 20)
  | 19 => some (18, 20)
  | _ => none

/-- The two finals that `combineFinal` makes a final of. -/
def finalPair : Nat → Option (Nat × Nat)
  | 3 => some (1, 19)
  | 5 => some (4, 22)
  | 6 => some (4, 27)
  | 9 => some (8, 1)
  | 10 => some (8, 16)
  | 11 => some (8, 17)
  | 12 => some (8, 19)
  | 13 => some (8, 25)
  | 14 => some (8, 26)
  | 15 => some (8, 27)
  | 18 => some (17, 19)
  | _ => none

/-- The compatibility jamo of the finals, from `t = 1` on. -/
def finals : List Char :=
  ['ㄱ', 'ㄲ', 'ㄳ', 'ㄴ', 'ㄵ', 'ㄶ', 'ㄷ', 'ㄹ', 'ㄺ', 'ㄻ', 'ㄼ', 'ㄽ', 'ㄾ', 'ㄿ', 'ㅀ', 'ㅁ', 'ㅂ',
    'ㅄ', 'ㅅ', 'ㅆ', 'ㅇ', 'ㅈ', 'ㅊ', 'ㅋ', 'ㅌ', 'ㅍ', 'ㅎ']

/-- No final is `t = 0`. -/
def finalJamo (t : Nat) : List Char :=
  if t = 0 then [] else finals[t - 1]?.toList

def vowelParts (v : Nat) : List Char :=
  match vowelPair v with
  | some (left, right) => vowels[left]?.toList ++ vowels[right]?.toList
  | none => vowels[v]?.toList

def finalParts (t : Nat) : List Char :=
  match finalPair t with
  | some (left, right) => finalJamo left ++ finalJamo right
  | none => finalJamo t

/-- A precomposed syllable is taken apart into its jamo, and a compound jamo into its two. -/
def decompChar (ch : Char) : List Char :=
  if 0xac00 ≤ ch.toNat ∧ ch.toNat ≤ 0xd7a3 then
    let i := ch.toNat - 0xac00
    initials[i / 588]?.toList ++ vowelParts (i / 28 % 21) ++ finalParts (i % 28)
  else
    match vowelIndex ch with
    | some v => vowelParts v
    | none =>
      match finalIndex ch with
      | some t => finalParts t
      | none => [ch]

def decomp (text : List Char) : List Char := text.flatMap decompChar

def ComposerAction.committed : ComposerAction → List Char
  | .commit text => text.toList
  | .preedit _ => []

/-- The texts that are committed, one after another. -/
def committed (actions : List ComposerAction) : List Char :=
  actions.flatMap ComposerAction.committed

/-! ## The tables agree -/

theorem initialIndex_eq_some {ch : Char} {l : Nat} (h : initialIndex ch = some l) :
    l < 19 ∧ initials[l]? = some ch := by
  unfold initialIndex at h
  split at h <;> cases h <;> exact ⟨by decide, rfl⟩

theorem vowelIndex_eq_some {ch : Char} {v : Nat} (h : vowelIndex ch = some v) :
    v < 21 ∧ vowels[v]? = some ch := by
  unfold vowelIndex at h
  split at h <;> cases h <;> exact ⟨by decide, rfl⟩

theorem finalIndex_eq_some {ch : Char} {t : Nat} (h : finalIndex ch = some t) :
    0 < t ∧ t < 28 ∧ finals[t - 1]? = some ch := by
  unfold finalIndex at h
  split at h <;> cases h <;> exact ⟨by decide, by decide, rfl⟩

theorem combineVowel_eq_some {left right v : Nat} (h : combineVowel left right = some v) :
    v < 21 ∧ vowelParts v = vowelParts left ++ vowelParts right := by
  unfold combineVowel at h
  split at h <;> cases h <;> exact ⟨by decide, rfl⟩

theorem combineFinal_eq_some {left right t : Nat} (h : combineFinal left right = some t) :
    t < 28 ∧ finalParts t = finalParts left ++ finalParts right := by
  unfold combineFinal at h
  split at h <;> cases h <;> exact ⟨by decide, rfl⟩

/-- A final that is split before a vowel. -/
theorem splitFinal_spec : ∀ t < 28, t ≠ 0 →
    (splitFinal t).1 < 28 ∧ (splitFinal t).2 < 19 ∧
      finalParts t = finalParts (splitFinal t).1 ++ initials[(splitFinal t).2]?.toList := by
  decide

theorem decompChar_initial : ∀ ch ∈ initials, decompChar ch = [ch] := by
  have h : initials.map decompChar = initials.map ([·]) := by decide
  exact List.map_inj_left.mp h

theorem decompChar_vowel : ∀ v < 21, vowels[v]?.toList.flatMap decompChar = vowelParts v := by
  decide

theorem decompChar_final : ∀ t < 28, (finalJamo t).flatMap decompChar = finalParts t := by
  decide

theorem decomp_append (xs ys : List Char) : decomp (xs ++ ys) = decomp xs ++ decomp ys :=
  List.flatMap_append

theorem committed_append (as bs : List ComposerAction) :
    committed (as ++ bs) = committed as ++ committed bs :=
  List.flatMap_append

/-! ## What is held back -/

/-- The indices are those of the tables. -/
def Pending.Valid : Pending → Prop
  | .none => True
  | .initial l => l < 19
  | .vowel v => v < 21
  | .syllable l v t => l < 19 ∧ v < 21 ∧ t < 28

/-- What is held back, taken apart. -/
def Pending.decomp : Pending → List Char
  | .none => []
  | .initial l => initials[l]?.toList
  | .vowel v => vowelParts v
  | .syllable l v t => initials[l]?.toList ++ vowelParts v ++ finalParts t

theorem decomp_composeSyllable {l v t : Nat} (hl : l < 19) (hv : v < 21) (ht : t < 28) :
    decomp (composeSyllable l v t).toList = (Pending.syllable l v t).decomp := by
  have hvalid : (0xac00 + ((l * 21 + v) * 28 + t)).isValidChar := by
    left
    omega
  have hnat : (Char.ofNat (0xac00 + ((l * 21 + v) * 28 + t))).toNat =
      0xac00 + ((l * 21 + v) * 28 + t) := by
    rw [Char.ofNat, dif_pos hvalid]
    rfl
  have hinitial : ((l * 21 + v) * 28 + t) / 588 = l := by omega
  have hvowel : ((l * 21 + v) * 28 + t) / 28 % 21 = v := by omega
  have hfinal : ((l * 21 + v) * 28 + t) % 28 = t := by omega
  rw [composeSyllable, if_pos hvalid, String.toList_singleton, decomp, List.flatMap_singleton,
    decompChar, if_pos (by omega), hnat]
  simp only [Nat.add_sub_cancel_left]
  rw [hinitial, hvowel, hfinal, Pending.decomp]

/-- Every valid state can be shown, and what is shown is what is held back. -/
theorem pendingText_spec {p : Pending} (hp : p.Valid) :
    ∃ text, pendingText p = .ok text ∧ decomp (text.toList.flatMap String.toList) = p.decomp := by
  cases p with
  | none => exact ⟨none, rfl, rfl⟩
  | initial l =>
    obtain ⟨ch, hch⟩ : ∃ ch, initials[l]? = some ch := ⟨_, List.getElem?_eq_getElem hp⟩
    refine ⟨some (String.singleton ch), ?_, ?_⟩
    · simp [pendingText, initialChar, index_ok hch]
    · simp [decomp, Pending.decomp, hch, decompChar_initial ch (List.mem_of_getElem? hch)]
  | vowel v =>
    obtain ⟨ch, hch⟩ : ∃ ch, vowels[v]? = some ch := ⟨_, List.getElem?_eq_getElem hp⟩
    have hparts := decompChar_vowel v hp
    rw [hch] at hparts
    refine ⟨some (String.singleton ch), ?_, ?_⟩
    · simp [pendingText, vowelChar, index_ok hch]
    · simpa [decomp, Pending.decomp] using hparts
  | syllable l v t =>
    obtain ⟨hl, hv, ht⟩ := hp
    refine ⟨some (composeSyllable l v t), rfl, ?_⟩
    simpa using decomp_composeSyllable hl hv ht

theorem commitPending_spec {p : Pending} (hp : p.Valid) :
    ∃ actions, commitPending p = .ok actions ∧ decomp (committed actions) = p.decomp := by
  obtain ⟨text, htext, hdecomp⟩ := pendingText_spec hp
  refine ⟨text.toList.map ComposerAction.commit, ?_, ?_⟩
  · simp [commitPending, htext]
  · rw [← hdecomp]
    cases text <;> simp [committed, ComposerAction.committed]

/-! ## A character -/

/-- The result `r` of taking in a jamo: nothing of `before ++ added` is lost. -/
def Kept (before added : List Char) (r : Except Fault (Pending × List ComposerAction)) : Prop :=
  ∃ p actions, r = .ok (p, actions) ∧ p.Valid ∧
    decomp (committed actions) ++ p.decomp = before ++ added

/-- Nothing is committed, and what is held back grows. -/
theorem Kept.hold {before added : List Char} {p : Pending} (hp : p.Valid)
    (h : p.decomp = before ++ added) : Kept before added (.ok (p, [])) :=
  ⟨p, [], rfl, hp, h⟩

/-- What was held back is committed, and `p'` begins anew. -/
theorem Kept.commit {added : List Char} {p p' : Pending} (hp : p.Valid) (hp' : p'.Valid)
    (h : p'.decomp = added) :
    Kept p.decomp added (do
      let actions ← commitPending p
      return (p', actions)) := by
  obtain ⟨actions, hactions, hdecomp⟩ := commitPending_spec hp
  refine ⟨p', actions, ?_, hp', ?_⟩
  · simp [hactions]
  · rw [hdecomp, h]

theorem pushConsonant_spec {p : Pending} {ch : Char} {l : Nat} (hp : p.Valid)
    (hl : initialIndex ch = some l) : Kept p.decomp [ch] (pushConsonant p ch l) := by
  obtain ⟨hl19, hch⟩ := initialIndex_eq_some hl
  have hinitial : (Pending.initial l).decomp = [ch] := by
    rw [Pending.decomp, hch]
    rfl
  -- a consonant that is a final as well is its own final part
  have hparts : ∀ t, finalIndex ch = some t → finalParts t = [ch] := by
    intro t ht
    obtain ⟨hpos, h28, hfinal⟩ := finalIndex_eq_some ht
    rw [← decompChar_final t h28, finalJamo, if_neg (by omega), hfinal]
    exact (List.append_nil _).trans (decompChar_initial ch (List.mem_of_getElem? hch))
  unfold pushConsonant
  split
  · exact Kept.hold hl19 hinitial
  · exact Kept.commit hp hl19 hinitial
  · exact Kept.commit hp hl19 hinitial
  · rename_i l' v
    split
    · rename_i t ht
      obtain ⟨-, h28, -⟩ := finalIndex_eq_some ht
      refine Kept.hold ⟨hp.1, hp.2.1, h28⟩ ?_
      rw [Pending.decomp, Pending.decomp, hparts t ht]
      simp [finalParts, finalPair, finalJamo]
    · exact Kept.commit hp hl19 hinitial
  · rename_i l' v t _
    split
    · rename_i tNew ht
      obtain ⟨next, hnext, hcombine⟩ := Option.bind_eq_some_iff.mp ht
      obtain ⟨h28, hsum⟩ := combineFinal_eq_some hcombine
      refine Kept.hold ⟨hp.1, hp.2.1, h28⟩ ?_
      rw [Pending.decomp, Pending.decomp, hsum, hparts next hnext]
      simp
    · exact Kept.commit hp hl19 hinitial

theorem pushVowel_spec {p : Pending} {v : Nat} (hp : p.Valid) (hv : v < 21) :
    Kept p.decomp (vowelParts v) (pushVowel p v) := by
  unfold pushVowel
  split
  · exact Kept.hold hv rfl
  · refine Kept.hold ⟨hp, hv, by omega⟩ ?_
    simp [Pending.decomp, finalParts, finalPair, finalJamo]
  · rename_i v'
    split
    · rename_i hcombine
      obtain ⟨h21, hsum⟩ := combineVowel_eq_some hcombine
      exact Kept.hold h21 hsum
    · exact Kept.commit hp hv rfl
  · rename_i l v'
    split
    · rename_i hcombine
      obtain ⟨h21, hsum⟩ := combineVowel_eq_some hcombine
      refine Kept.hold ⟨hp.1, h21, by omega⟩ ?_
      simp [Pending.decomp, finalParts, finalPair, finalJamo, hsum]
    · exact Kept.commit hp hv rfl
  · rename_i l v' t ht
    obtain ⟨hl, hv', ht28⟩ := hp
    obtain ⟨hremaining, hmoved, hsplit⟩ := splitFinal_spec t ht28 ht
    refine ⟨.syllable (splitFinal t).2 v 0, [.commit (composeSyllable l v' (splitFinal t).1)], rfl,
      ⟨hmoved, hv, by omega⟩, ?_⟩
    rw [committed, List.flatMap_singleton, ComposerAction.committed,
      decomp_composeSyllable hl hv' hremaining, Pending.decomp, Pending.decomp, Pending.decomp,
      hsplit]
    simp [finalParts, finalPair, finalJamo]

theorem pushJamo_spec {p : Pending} (hp : p.Valid) (ch : Char) :
    Kept p.decomp (decompChar ch) (pushJamo p ch) := by
  unfold pushJamo
  split
  · rename_i l hl
    rw [decompChar_initial ch (List.mem_of_getElem? (initialIndex_eq_some hl).2)]
    exact pushConsonant_spec hp hl
  · split
    · rename_i v hv
      obtain ⟨h21, hch⟩ := vowelIndex_eq_some hv
      have hparts := decompChar_vowel v h21
      rw [hch] at hparts
      rw [show decompChar ch = vowelParts v by simpa using hparts]
      exact pushVowel_spec hp h21
    · obtain ⟨actions, hactions, hdecomp⟩ := commitPending_spec hp
      refine ⟨.none, actions ++ [.commit (String.singleton ch)], ?_, trivial, ?_⟩
      · simp [hactions]
      · rw [committed_append, decomp_append, hdecomp]
        simp [committed, ComposerAction.committed, decomp, Pending.decomp]

/-- A character keeps what was held back, and comes after it. -/
theorem pushChar_spec {p : Pending} (hp : p.Valid) (ch : Char) :
    Kept p.decomp (decompChar ch) (pushChar p ch) := by
  obtain ⟨p', actions, hjamo, hp', hdecomp⟩ := pushJamo_spec hp ch
  obtain ⟨text, htext, -⟩ := pendingText_spec hp'
  refine ⟨p', actions ++ [.preedit text], ?_, hp', ?_⟩
  · simp [pushChar, hjamo, htext, bind, Except.bind, pure, Except.pure]
  · rw [committed_append, ← hdecomp]
    simp [committed, ComposerAction.committed]

/-! ## A text -/

theorem pushChars_spec {p : Pending} (hp : p.Valid) (text : List Char) :
    Kept p.decomp (decomp text) (pushChars p text) := by
  induction text generalizing p with
  | nil => exact Kept.hold hp (List.append_nil _).symm
  | cons ch text ih =>
    obtain ⟨p₁, actions₁, h₁, hp₁, hdecomp₁⟩ := pushChar_spec hp ch
    obtain ⟨p₂, actions₂, h₂, hp₂, hdecomp₂⟩ := ih hp₁
    refine ⟨p₂, actions₁ ++ actions₂, ?_, hp₂, ?_⟩
    · simp [pushChars, h₁, h₂, bind, Except.bind, pure, Except.pure]
    · calc decomp (committed (actions₁ ++ actions₂)) ++ p₂.decomp
          = decomp (committed actions₁) ++ (decomp (committed actions₂) ++ p₂.decomp) := by
            rw [committed_append, decomp_append, List.append_assoc]
        _ = (decomp (committed actions₁) ++ p₁.decomp) ++ decomp text := by
            rw [hdecomp₂, List.append_assoc]
        _ = p.decomp ++ decomp (ch :: text) := by
            rw [hdecomp₁, List.append_assoc]
            rfl

theorem flush_spec {p : Pending} (hp : p.Valid) :
    ∃ actions, flush p = .ok (.none, actions) ∧ decomp (committed actions) = p.decomp := by
  obtain ⟨text, htext, hdecomp⟩ := pendingText_spec hp
  cases text with
  | none => exact ⟨[], by simp [flush, htext, bind, Except.bind, pure, Except.pure], hdecomp⟩
  | some text =>
    refine ⟨[.commit text, .preedit none], ?_, ?_⟩
    · simp [flush, htext, bind, Except.bind, pure, Except.pure]
    · rw [← hdecomp]
      simp [committed, ComposerAction.committed]

/-- Nothing of a text is lost or reordered, up to what it is taken apart into. -/
theorem committed_lossless (s : String) :
    ∃ p actions actions', pushText .none s = .ok (p, actions) ∧ flush p = .ok (.none, actions') ∧
      decomp (committed (actions ++ actions')) = decomp s.toList := by
  obtain ⟨p, actions, hpush, hp, hdecomp⟩ := pushChars_spec (p := .none) trivial s.toList
  obtain ⟨actions', hflush, hdecomp'⟩ := flush_spec hp
  refine ⟨p, actions, actions', hpush, hflush, ?_⟩
  rw [committed_append, decomp_append, hdecomp', hdecomp]
  rfl

/-! ## The jamo of the tables -/

def jamo : List Char := initials ++ vowels ++ finals

theorem mem_jamo_of_initials {l : Nat} {x : Char} (h : x ∈ initials[l]?.toList) : x ∈ jamo := by
  have hx := List.mem_of_getElem? (Option.mem_toList.mp h)
  simp [jamo, hx]

theorem mem_jamo_of_vowels {v : Nat} {x : Char} (h : x ∈ vowels[v]?.toList) : x ∈ jamo := by
  have hx := List.mem_of_getElem? (Option.mem_toList.mp h)
  simp [jamo, hx]

theorem mem_jamo_of_finalJamo {t : Nat} {x : Char} (h : x ∈ finalJamo t) : x ∈ jamo := by
  unfold finalJamo at h
  split at h
  · cases h
  · have hx := List.mem_of_getElem? (Option.mem_toList.mp h)
    simp [jamo, hx]

theorem mem_jamo_of_vowelParts {v : Nat} {x : Char} (h : x ∈ vowelParts v) : x ∈ jamo := by
  unfold vowelParts at h
  split at h
  · exact (List.mem_append.mp h).elim mem_jamo_of_vowels mem_jamo_of_vowels
  · exact mem_jamo_of_vowels h

theorem mem_jamo_of_finalParts {t : Nat} {x : Char} (h : x ∈ finalParts t) : x ∈ jamo := by
  unfold finalParts at h
  split at h
  · exact (List.mem_append.mp h).elim mem_jamo_of_finalJamo mem_jamo_of_finalJamo
  · exact mem_jamo_of_finalJamo h

theorem mem_jamo_of_pending {p : Pending} {x : Char} (h : x ∈ p.decomp) : x ∈ jamo := by
  cases p with
  | none => cases h
  | initial l => exact mem_jamo_of_initials h
  | vowel v => exact mem_jamo_of_vowelParts h
  | syllable l v t =>
    simp only [Pending.decomp, List.mem_append] at h
    obtain (h | h) | h := h
    · exact mem_jamo_of_initials h
    · exact mem_jamo_of_vowelParts h
    · exact mem_jamo_of_finalParts h

/-- A character is taken apart into jamo of the tables, or it stays. -/
theorem mem_decompChar {ch x : Char} (h : x ∈ decompChar ch) : x ∈ jamo ∨ decompChar ch = [ch] := by
  unfold decompChar at h ⊢
  split at h
  · simp only [List.mem_append] at h
    obtain (h | h) | h := h
    · exact .inl (mem_jamo_of_initials h)
    · exact .inl (mem_jamo_of_vowelParts h)
    · exact .inl (mem_jamo_of_finalParts h)
  · rename_i hsyllable
    split at h
    · exact .inl (mem_jamo_of_vowelParts h)
    · split at h
      · exact .inl (mem_jamo_of_finalParts h)
      · right
        rw [if_neg hsyllable]

/-! ## What a character emits -/

/-- What was held back is committed without a preedit. -/
theorem commitPending_commits {p q p' : Pending} {actions rest : List ComposerAction}
    (hrest : ∀ text, ComposerAction.preedit text ∉ rest)
    (h : (do
      let actions ← commitPending p
      return (q, actions ++ rest)) = (.ok (p', actions) : Except Fault _)) :
    ∀ text, ComposerAction.preedit text ∉ actions := by
  cases hp : pendingText p with
  | error e => simp [commitPending, hp, bind, Except.bind] at h
  | ok text =>
    simp only [commitPending, hp, bind, Except.bind, pure, Except.pure, Except.ok.injEq,
      Prod.mk.injEq] at h
    rw [← h.2]
    simp [hrest]

theorem pushConsonant_commits {p p' : Pending} {ch : Char} {l : Nat} {actions : List ComposerAction}
    (h : pushConsonant p ch l = .ok (p', actions)) : ∀ text, ComposerAction.preedit text ∉ actions := by
  have hcommit := fun q => @commitPending_commits p q p' actions [] (by simp)
  simp only [List.append_nil] at hcommit
  unfold pushConsonant at h
  split at h
  · cases h
    simp
  · exact hcommit _ h
  · exact hcommit _ h
  · split at h
    · cases h
      simp
    · exact hcommit _ h
  · split at h
    · cases h
      simp
    · exact hcommit _ h

theorem pushVowel_commits {p p' : Pending} {v : Nat} {actions : List ComposerAction}
    (h : pushVowel p v = .ok (p', actions)) : ∀ text, ComposerAction.preedit text ∉ actions := by
  have hcommit := fun q => @commitPending_commits p q p' actions [] (by simp)
  simp only [List.append_nil] at hcommit
  unfold pushVowel at h
  split at h
  · cases h
    simp
  · cases h
    simp
  · split at h
    · cases h
      simp
    · exact hcommit _ h
  · split at h
    · cases h
      simp
    · exact hcommit _ h
  · cases h
    simp

/-- A character sets the preedit once, to what is held back after it. -/
theorem pushChar_preedit {p p' : Pending} {ch : Char} {actions : List ComposerAction}
    (h : pushChar p ch = .ok (p', actions)) :
    ∃ commits preedit, actions = commits ++ [.preedit preedit] ∧ pendingText p' = .ok preedit ∧
      ∀ text, ComposerAction.preedit text ∉ commits := by
  unfold pushChar at h
  obtain ⟨⟨q, commits⟩, hjamo, h⟩ := Raster.bind_eq_ok.mp h
  obtain ⟨preedit, hpreedit, h⟩ := Raster.bind_eq_ok.mp h
  cases h
  refine ⟨commits, preedit, rfl, hpreedit, ?_⟩
  unfold pushJamo at hjamo
  split at hjamo
  · exact pushConsonant_commits hjamo
  · split at hjamo
    · exact pushVowel_commits hjamo
    · exact commitPending_commits (by simp) hjamo

theorem pushChars_eq_run (p : Pending) (text : List Char) :
    pushChars p text = Transducer.run pushChar p text := by
  induction text generalizing p with
  | nil => rfl
  | cons ch text ih => simp only [pushChars, Transducer.run, ih]

end Hangul
end VBox
