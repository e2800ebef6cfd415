import VBox.Lib.Tape
import VBox.Viewer.Composer

/-!
# Viewer.WindowComposer

The composer that a window of the viewer has (`InputComposer` in
`crates/client/src/viewer/ime/mod.rs`), as one whose indices are always those of the tables: no call
of it fails.

* `pushText_call`, `flush_call`, `backspace_call`: what a call takes in is passed on or held, in its
  order, and what is held is shown.
-/

namespace VBox

open Hangul (committed)
open Tape (Passes Writing)

/-! ## Calls that do not fail -/

/-- The indices of a viewer's composer are always those of the tables. -/
def WindowComposer : Type := {c : InputComposer // c.Valid}

namespace WindowComposer

def fresh : WindowComposer := ⟨{}, trivial⟩

def held (c : WindowComposer) : List Char := c.val.held

/-- The preedit of what is held. -/
def shown (c : WindowComposer) : Option String := c.val.pendingText.toOption.join

/-- The result of a call that does not fail. -/
def completed : (r : Except Fault (InputComposer × List ComposerAction)) →
    (∃ c actions, r = .ok (c, actions) ∧ c.Valid) → List ComposerAction × WindowComposer
  | .ok (c, actions), h =>
    (actions, ⟨c, by
      obtain ⟨c', actions', heq, hvalid⟩ := h
      cases heq
      exact hvalid⟩)
  | .error _, h => absurd h (by rintro ⟨c, actions, heq, -⟩; cases heq)

theorem completed_eq {r : Except Fault (InputComposer × List ComposerAction)} {c : InputComposer}
    {actions : List ComposerAction} (h : ∃ c actions, r = .ok (c, actions) ∧ c.Valid)
    (hr : r = .ok (c, actions)) (hvalid : c.Valid) : completed r h = (actions, ⟨c, hvalid⟩) := by
  subst hr
  rfl

theorem pushText_total (c : WindowComposer) (text : String) :
    ∃ c' actions, c.val.pushText text = .ok (c', actions) ∧ c'.Valid := by
  obtain ⟨c', actions, h, hkept⟩ := InputComposer.pushText_spec c.property text
  exact ⟨c', actions, h, hkept.valid⟩

theorem flush_total (c : WindowComposer) :
    ∃ c' actions, c.val.flush = .ok (c', actions) ∧ c'.Valid := by
  obtain ⟨actions, h, hkept⟩ := InputComposer.flush_spec c.property
  exact ⟨_, actions, h, hkept.valid⟩

theorem backspace_total (c : WindowComposer) :
    ∃ c' actions, c.val.backspace = .ok (c', actions) ∧ c'.Valid := by
  obtain ⟨c', actions, h, hmirrored, -⟩ := InputComposer.backspace_spec c.property
  exact ⟨c', actions, h, hmirrored.valid⟩

end WindowComposer

/-- `InputComposer`, for the windows of the viewer. -/
def inputComposer : Composer WindowComposer where
  isEmpty c := c.val.isEmpty
  backspace c := WindowComposer.completed c.val.backspace c.backspace_total
  pushText c text := WindowComposer.completed (c.val.pushText text) (c.pushText_total text)
  flush c := WindowComposer.completed c.val.flush c.flush_total
  canCompose := canCompose

/-! ## What a call passes on -/

namespace WindowComposer

theorem pendingText_eq (c : WindowComposer) : c.val.pendingText = .ok c.shown := by
  obtain ⟨⟨backend⟩, hvalid⟩ := c
  cases backend with
  | idle => rfl
  | hangul p =>
    obtain ⟨text, htext, -⟩ := Hangul.pendingText_spec hvalid
    simp only [shown, InputComposer.pendingText, htext]
    rfl
  | kana c => rfl

/-- A call from `c` that takes in what `writings` say. -/
structure Call (writings : List (Writing Char UInt32)) (c : WindowComposer)
    (r : List ComposerAction × WindowComposer) : Prop where
  passes : Passes writings c.held ((normalise (committed r.1)).map .char) r.2.held
  shown : r.2.shown = preeditAfter c.shown r.1

variable {c : WindowComposer} {c' : InputComposer} {actions : List ComposerAction}

theorem shown_of_mirrored (h : c.val.Mirrored c' actions) :
    WindowComposer.shown ⟨c', h.valid⟩ = preeditAfter c.shown actions := by
  have hpending := h.shown _ c.pendingText_eq
  exact Except.ok.inj ((pendingText_eq ⟨c', h.valid⟩).symm.trans hpending)

theorem pushText_call (c : WindowComposer) (text : String) :
    Call [.text (normalise text.toList)] c (inputComposer.pushText c text) := by
  obtain ⟨c', actions, hpush, hkept⟩ := InputComposer.pushText_spec c.property text
  have heq : inputComposer.pushText c text = (actions, ⟨c', hkept.valid⟩) :=
    completed_eq _ hpush hkept.valid
  rw [heq]
  exact ⟨.text hkept.text, shown_of_mirrored hkept.toMirrored⟩

theorem flush_call (c : WindowComposer) :
    Call [] c (inputComposer.flush c) ∧ (inputComposer.flush c).2.held = [] ∧
      (inputComposer.flush c).2.shown = none := by
  obtain ⟨actions, hflush, hkept⟩ := InputComposer.flush_spec c.property
  have heq : inputComposer.flush c = (actions, ⟨⟨.idle⟩, hkept.valid⟩) :=
    completed_eq _ hflush hkept.valid
  rw [heq]
  refine ⟨⟨.flush ?_, shown_of_mirrored hkept.toMirrored⟩, rfl, rfl⟩
  have htext := hkept.text
  simp only [normalise, Hangul.decomp, Kana.decomp, List.flatMap_nil, List.append_nil] at htext
  exact htext

theorem kana_decomp_ne_nil {text : List Char} (h : text ≠ []) : Kana.decomp text ≠ [] := by
  obtain ⟨ch, rest, rfl⟩ := List.exists_cons_of_ne_nil h
  have hch : Kana.decompChar ch ≠ [] := by
    unfold Kana.decompChar
    split
    · exact List.cons_ne_nil _ _
    · repeat' split
      all_goals exact List.cons_ne_nil _ _
  intro hnil
  exact hch (List.append_eq_nil_iff.mp hnil).1

theorem initials_ne_nil {l : Nat} (hl : l < 19) : Hangul.initials[l]?.toList ≠ [] := by
  have hall : ∀ l : Fin 19, Hangul.initials[l.val]?.toList ≠ [] := by decide
  exact hall ⟨l, hl⟩

theorem vowelParts_ne_nil {v : Nat} (hv : v < 21) : Hangul.vowelParts v ≠ [] := by
  have hall : ∀ v : Fin 21, Hangul.vowelParts v ≠ [] := by decide
  exact hall ⟨v, hv⟩

theorem finalParts_ne_nil {t : Nat} (hpos : t ≠ 0) (ht : t < 28) : Hangul.finalParts t ≠ [] := by
  have hall : ∀ t : Fin 28, t.val ≠ 0 → Hangul.finalParts t ≠ [] := by decide
  exact hall ⟨t, ht⟩ hpos

theorem hangul_decompChar_ne_nil (ch : Char) : Hangul.decompChar ch ≠ [] := by
  unfold Hangul.decompChar
  split
  · rename_i hrange
    have hl : (ch.toNat - 0xac00) / 588 < 19 := by omega
    intro hnil
    exact initials_ne_nil hl (List.append_eq_nil_iff.mp (List.append_eq_nil_iff.mp hnil).1).1
  · split
    · rename_i v hv
      exact vowelParts_ne_nil (Hangul.vowelIndex_eq_some hv).1
    · split
      · rename_i t ht
        obtain ⟨hpos, hlt, -⟩ := Hangul.finalIndex_eq_some ht
        exact finalParts_ne_nil (by omega) hlt
      · exact List.cons_ne_nil _ _

/-- An erasure takes the last jamo of a syllable, or all that is held. -/
theorem hangul_erased {p p' : Hangul.Pending} (hp : p.Valid) (hsome : p ≠ .none)
    (hback : Hangul.backspace p = .ok (p', actions)) :
    ∃ cs, p'.decomp ++ cs = p.decomp ∧ cs ≠ [] := by
  cases p with
  | none => exact absurd rfl hsome
  | initial l =>
    cases hback
    exact ⟨_, rfl, initials_ne_nil hp⟩
  | vowel v =>
    cases hback
    exact ⟨_, rfl, vowelParts_ne_nil hp⟩
  | syllable l v t =>
    obtain ⟨hl, hv, ht⟩ := hp
    have hp' : (if t ≠ 0 then Hangul.Pending.syllable l v 0 else .initial l).Valid := by
      split
      · exact ⟨hl, hv, by decide⟩
      · exact hl
    obtain ⟨text, htext, -⟩ := Hangul.pendingText_spec hp'
    have heq : Hangul.backspace (.syllable l v t) =
        .ok (if t ≠ 0 then Hangul.Pending.syllable l v 0 else .initial l, [.preedit text]) := by
      simp only [Hangul.backspace, htext]
      rfl
    cases heq.symm.trans hback
    by_cases hzero : t = 0
    · subst hzero
      refine ⟨Hangul.vowelParts v, ?_, vowelParts_ne_nil hv⟩
      simp [Hangul.Pending.decomp, Hangul.finalParts, Hangul.finalPair, Hangul.finalJamo]
    · refine ⟨Hangul.finalParts t, ?_, finalParts_ne_nil hzero ht⟩
      simp [Hangul.Pending.decomp, Hangul.finalParts, Hangul.finalPair, Hangul.finalJamo, hzero]

theorem backspace_call (h : c.val.isEmpty = false) :
    Call [.erase] c (inputComposer.backspace c) := by
  obtain ⟨c', actions, hback, hmirrored, hcommitted⟩ := InputComposer.backspace_spec c.property
  have heq : inputComposer.backspace c = (actions, ⟨c', hmirrored.valid⟩) :=
    completed_eq _ hback hmirrored.valid
  rw [heq]
  refine ⟨?_, shown_of_mirrored hmirrored⟩
  rw [hcommitted]
  obtain ⟨⟨backend⟩, hvalid⟩ := c
  cases backend with
  | idle => cases h
  | hangul p =>
    have hsome : p ≠ .none := by simpa [InputComposer.isEmpty, Hangul.isEmpty] using h
    cases hr : Hangul.backspace p with
    | error e => simp [InputComposer.backspace, hr] at hback
    | ok r =>
      obtain ⟨cs, hcs, hne⟩ := hangul_erased hvalid hsome hr
      simp only [InputComposer.backspace, hr] at hback
      cases hback
      refine .erase ?_ (kana_decomp_ne_nil hne)
      exact (Kana.decomp_append _ _).symm.trans (congrArg Kana.decomp hcs)
  | kana pending =>
    cases pending with
    | none => cases h
    | some ch =>
      cases hback
      refine .erase rfl (kana_decomp_ne_nil ?_)
      rw [Hangul.decomp, Option.toList_some, List.flatMap_singleton]
      exact hangul_decompChar_ne_nil ch

end WindowComposer

end VBox
