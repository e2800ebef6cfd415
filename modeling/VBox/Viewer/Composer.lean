import VBox.Viewer.Kana

/-!
# Viewer.Composer

The dispatcher of the composers (`crates/client/src/viewer/ime/mod.rs`). Every chunk of text is
looked at by itself: it goes to the Hangul composer, to the kana composer or past both, and when
that is another one than before, the one before is flushed.

* `normalise`: a text with its syllables and its voiced kana taken apart.
* `pushText_spec`, `flush_spec`, `backspace_spec`: what one call keeps, shows and emits.
* `chunks_lossless`: nothing of a sequence of chunks is lost or reordered.
* `run_mirrored`: over every run, the guest is shown what is held back.
-/

namespace VBox

open Hangul (committed committed_append)

/-! ## The dispatcher -/

inductive Backend where
  | idle
  | hangul (c : Hangul.Pending)
  | kana (c : Option Char)

structure InputComposer where
  backend : Backend := .idle

inductive Target where
  | none
  | hangul
  | kana

/-- At least one composer has something to do for the text. -/
def canCompose (text : String) : Bool :=
  Hangul.canCompose text || Kana.canCompose text

def detect (text : String) : Target :=
  if Hangul.canCompose text then .hangul
  else if Kana.canCompose text then .kana
  else .none

namespace InputComposer

def isEmpty (self : InputComposer) : Bool :=
  match self.backend with
  | .idle => true
  | .hangul c => Hangul.isEmpty c
  | .kana c => Kana.isEmpty c

def backendMatches (self : InputComposer) (target : Target) : Bool :=
  match self.backend, target with
  | .idle, .none | .hangul _, .hangul | .kana _, .kana => true
  | _, _ => false

def flush (self : InputComposer) : Except Fault (InputComposer × List ComposerAction) :=
  match self.backend with
  | .idle => .ok (⟨.idle⟩, [])
  | .hangul c => do
    let (_, actions) ← Hangul.flush c
    return (⟨.idle⟩, actions)
  | .kana c => .ok (⟨.idle⟩, (Kana.flush c).2)

def backspace (self : InputComposer) : Except Fault (InputComposer × List ComposerAction) :=
  match self.backend with
  | .idle => .ok (self, [])
  | .hangul c => do
    let (c, actions) ← Hangul.backspace c
    return (⟨.hangul c⟩, actions)
  | .kana c => .ok (⟨.kana (Kana.backspace c).1⟩, (Kana.backspace c).2)

def switchFor (self : InputComposer) (text : String) :
    Except Fault (InputComposer × List ComposerAction) :=
  let target := detect text
  if self.backendMatches target then .ok (self, [])
  else do
    let (_, actions) ← self.flush
    match target with
    | .none => return (⟨.idle⟩, actions)
    | .hangul => return (⟨.hangul .none⟩, actions)
    | .kana => return (⟨.kana none⟩, actions)

/-- The text goes to the backend that is there after the switch. -/
def pushBackend (self : InputComposer) (text : String) :
    Except Fault (InputComposer × List ComposerAction) :=
  match self.backend with
  | .hangul c => do
    let (c, actions) ← Hangul.pushText c text
    return (⟨.hangul c⟩, actions)
  | .kana c => .ok (⟨.kana (Kana.pushText c text).1⟩, (Kana.pushText c text).2)
  | .idle => .ok (self, [.commit text])

def pushText (self : InputComposer) (text : String) :
    Except Fault (InputComposer × List ComposerAction) :=
  if text.isEmpty then .ok (self, [])
  else do
    let (switched, actions) ← self.switchFor text
    let (pushed, actions') ← switched.pushBackend text
    return (pushed, actions ++ actions')

/-! ## What is held back and what is shown -/

/-- The preedit text of the backend. -/
def pendingText (self : InputComposer) : Except Fault (Option String) :=
  match self.backend with
  | .idle => .ok none
  | .hangul c => Hangul.pendingText c
  | .kana c => .ok (Kana.preeditText c)

/-- The indices of a syllable are those of the tables, and a kana that is held back is no mark. -/
def Valid (self : InputComposer) : Prop :=
  match self.backend with
  | .idle => True
  | .hangul c => c.Valid
  | .kana c => Kana.Valid c

end InputComposer

/-- Syllables are taken apart into jamo, and voiced kana into a kana and a mark. -/
def normalise (text : List Char) : List Char := Kana.decomp (Hangul.decomp text)

/-- The preedit after some actions: that of the last one that sets it. -/
def preeditAfter (before : Option String) (actions : List ComposerAction) : Option String :=
  actions.foldl (fun text action =>
    match action with
    | .commit _ => text
    | .preedit text' => text') before

theorem preeditAfter_append (before : Option String) (as bs : List ComposerAction) :
    preeditAfter before (as ++ bs) = preeditAfter (preeditAfter before as) bs :=
  List.foldl_append

/-- What is held back, taken apart. -/
def InputComposer.held (self : InputComposer) : List Char :=
  match self.backend with
  | .idle => []
  | .hangul c => Kana.decomp c.decomp
  | .kana c => normalise c.toList

/-! ## Both ways of taking apart together -/

theorem normalise_append (xs ys : List Char) : normalise (xs ++ ys) = normalise xs ++ normalise ys := by
  rw [normalise, Hangul.decomp_append, Kana.decomp_append]
  rfl

theorem kana_decompChar_jamo {ch : Char} (h : ch ∈ Hangul.jamo) : Kana.decompChar ch = [ch] := by
  have hall : Hangul.jamo.all (fun ch => Kana.decompChar ch = [ch]) = true := by decide +kernel
  simpa using List.all_eq_true.mp hall ch h

/-- The kana of the table are no jamo and no syllables. -/
theorem hangul_decompChar_voicingTable {entry : Char × Option Char × Option Char}
    (h : entry ∈ Kana.voicingTable) :
    Hangul.decompChar entry.1 = [entry.1] ∧
      (∀ out, entry.2.1 = some out → Hangul.decompChar out = [out]) ∧
      ∀ out, entry.2.2 = some out → Hangul.decompChar out = [out] := by
  exact Kana.voicingTable_of_all (fun base => Hangul.decompChar base = [base])
    (fun _ out => Hangul.decompChar out = [out]) (fun _ out => Hangul.decompChar out = [out])
    (by decide +kernel) h

/-- No character is taken apart both ways. -/
theorem decompChar_comm (ch : Char) :
    (Hangul.decompChar ch).flatMap Kana.decompChar =
      (Kana.decompChar ch).flatMap Hangul.decompChar := by
  cases hparts : Kana.voicedParts ch with
  | some parts =>
    obtain ⟨base, mark⟩ := parts
    obtain ⟨entry, hentry, rfl, hmark⟩ := Kana.voicedParts_eq_some hparts
    obtain ⟨hbase, hvoiced, hsemi⟩ := hangul_decompChar_voicingTable hentry
    have hkana : Kana.decompChar ch = [entry.1, mark] := by
      simp only [Kana.decompChar, hparts]
    obtain ⟨hout, rfl⟩ | ⟨hout, rfl⟩ := hmark
    · rw [hvoiced ch hout, List.flatMap_singleton, hkana]
      simp [hbase, show Hangul.decompChar '\u3099' = ['\u3099'] by decide]
    · rw [hsemi ch hout, List.flatMap_singleton, hkana]
      simp [hbase, show Hangul.decompChar '\u309a' = ['\u309a'] by decide]
  | none =>
    by_cases hvoiced : ch = '\u309b'
    · subst hvoiced
      decide
    by_cases hsemi : ch = '\u309c'
    · subst hsemi
      decide
    have hkana : Kana.decompChar ch = [ch] := by
      simp only [Kana.decompChar, hparts, if_neg hvoiced, if_neg hsemi]
    have hfix : ∀ x ∈ Hangul.decompChar ch, Kana.decompChar x = [x] := by
      intro x hx
      obtain hx | hch := Hangul.mem_decompChar hx
      · exact kana_decompChar_jamo hx
      · rw [hch, List.mem_singleton] at hx
        rw [hx, hkana]
    rw [hkana, List.flatMap_singleton, List.flatMap_congr hfix, List.flatMap_singleton']

theorem normalise_eq (text : List Char) : normalise text = Hangul.decomp (Kana.decomp text) := by
  simp only [normalise, Hangul.decomp, Kana.decomp, List.flatMap_assoc, decompChar_comm]

/-- The replacement character is in no text that is taken apart, unless it was there before. -/
theorem replacement_mem_normalise {text : List Char} :
    '\ufffd' ∈ normalise text ↔ '\ufffd' ∈ text := by
  have hkana : ∀ ch, '\ufffd' ∈ Kana.decompChar ch → ch = '\ufffd' := by
    intro ch h
    cases hparts : Kana.voicedParts ch with
    | some parts =>
      obtain ⟨base, mark⟩ := parts
      obtain ⟨entry, hentry, rfl, hmark⟩ := Kana.voicedParts_eq_some hparts
      have hbase : Kana.voicingTable.all (fun entry => entry.1 ≠ '\ufffd') = true := by decide
      have hne := List.all_eq_true.mp hbase entry hentry
      simp only [Kana.decompChar, hparts, List.mem_cons, List.not_mem_nil, or_false] at h
      obtain h | h := h
      · simp [← h] at hne
      · obtain ⟨-, rfl⟩ | ⟨-, rfl⟩ := hmark
        · exact absurd h (by decide)
        · exact absurd h (by decide)
    | none =>
      simp only [Kana.decompChar, hparts] at h
      split at h
      · exact absurd h (by decide)
      · split at h
        · exact absurd h (by decide)
        · exact (List.mem_singleton.mp h).symm
  have hhangul : ∀ ch, '\ufffd' ∈ Hangul.decompChar ch → ch = '\ufffd' := by
    intro ch h
    obtain hjamo | hch := Hangul.mem_decompChar h
    · exact absurd hjamo (by decide)
    · rw [hch] at h
      exact (List.mem_singleton.mp h).symm
  constructor
  · intro h
    obtain ⟨y, hy, hmem⟩ := List.mem_flatMap.mp h
    obtain rfl := hkana y hmem
    obtain ⟨x, hx, hmem⟩ := List.mem_flatMap.mp hy
    obtain rfl := hhangul x hmem
    exact hx
  · intro h
    refine List.mem_flatMap.mpr ⟨'\ufffd', List.mem_flatMap.mpr ⟨'\ufffd', h, ?_⟩, ?_⟩
    · decide
    · decide

/-! ## What is shown has no replacement character -/

theorem hangul_pendingText_clean {p : Hangul.Pending} (hp : p.Valid) {text : String}
    (h : Hangul.pendingText p = .ok (some text)) : '\ufffd' ∉ text.toList := by
  obtain ⟨text', htext, hdecomp⟩ := Hangul.pendingText_spec hp
  obtain rfl : text' = some text := Except.ok.inj (htext.symm.trans h)
  intro hmem
  have hjamo : '\ufffd' ∈ Hangul.jamo := by
    apply Hangul.mem_jamo_of_pending (p := p)
    rw [← hdecomp]
    exact List.mem_flatMap.mpr ⟨'\ufffd', by simpa using hmem, by decide⟩
  exact absurd hjamo (by decide)

theorem kana_preeditText_clean {pending : Option Char} (hp : Kana.Valid pending) {text : String}
    (h : Kana.preeditText pending = some text) : '\ufffd' ∉ text.toList := by
  obtain ⟨ch, rfl, rfl⟩ := Option.map_eq_some_iff.mp h
  rw [String.toList_singleton, List.mem_singleton]
  rintro rfl
  exact absurd (hp _ rfl) (by decide)

/-! ## A call -/

namespace InputComposer

/-- A call from `a` to `c`: the guest is shown what is held back afterwards, and no preedit has the
replacement character. -/
structure Mirrored (a c : InputComposer) (actions : List ComposerAction) : Prop where
  valid : c.Valid
  shown : ∀ before, a.pendingText = .ok before → c.pendingText = .ok (preeditAfter before actions)
  clean : ∀ text, ComposerAction.preedit (some text) ∈ actions → '\ufffd' ∉ text.toList

/-- A call that takes in `added`: it comes after what was held back, and nothing of both is lost. -/
structure Kept (a : InputComposer) (added : List Char) (c : InputComposer)
    (actions : List ComposerAction) : Prop extends Mirrored a c actions where
  text : normalise (committed actions) ++ c.held = a.held ++ normalise added

theorem Mirrored.trans {a b c : InputComposer} {as bs : List ComposerAction}
    (h : Mirrored a b as) (h' : Mirrored b c bs) : Mirrored a c (as ++ bs) where
  valid := h'.valid
  shown before hbefore := by
    rw [preeditAfter_append]
    exact h'.shown _ (h.shown before hbefore)
  clean text htext := (List.mem_append.mp htext).elim (h.clean text) (h'.clean text)

theorem Kept.trans {a b c : InputComposer} {xs ys : List Char} {as bs : List ComposerAction}
    (h : Kept a xs b as) (h' : Kept b ys c bs) : Kept a (xs ++ ys) c (as ++ bs) where
  toMirrored := h.toMirrored.trans h'.toMirrored
  text := by
    calc normalise (committed (as ++ bs)) ++ c.held
        = normalise (committed as) ++ (normalise (committed bs) ++ c.held) := by
          rw [committed_append, normalise_append, List.append_assoc]
      _ = (normalise (committed as) ++ b.held) ++ normalise ys := by
          rw [h'.text, List.append_assoc]
      _ = a.held ++ normalise (xs ++ ys) := by
          rw [h.text, normalise_append, List.append_assoc]

theorem Kept.refl {a : InputComposer} (h : a.Valid) : Kept a [] a [] where
  valid := h
  shown _ hbefore := hbefore
  clean _ htext := nomatch htext
  text := (List.append_nil _).symm

/-- With nothing held back, it is the same which backend comes next. -/
theorem Kept.fresh {a c : InputComposer} {added : List Char} {actions : List ComposerAction}
    (h : Kept a added ⟨.idle⟩ actions) (hvalid : c.Valid) (hheld : c.held = [])
    (hpending : c.pendingText = .ok none) : Kept a added c actions where
  valid := hvalid
  shown before hbefore := hpending.trans (h.shown before hbefore)
  clean := h.clean
  text := by
    rw [hheld]
    exact h.text

/-! ### Hangul -/

theorem hangul_pushChar {p : Hangul.Pending} (hp : p.Valid) (ch : Char) :
    ∃ p' actions, Hangul.pushChar p ch = .ok (p', actions) ∧
      Kept ⟨.hangul p⟩ [ch] ⟨.hangul p'⟩ actions := by
  obtain ⟨p', actions, hpush, hp', hdecomp⟩ := Hangul.pushChar_spec hp ch
  obtain ⟨commits, preedit, rfl, hpreedit, hcommits⟩ := Hangul.pushChar_preedit hpush
  refine ⟨p', commits ++ [.preedit preedit], hpush, ⟨hp', ?_, ?_⟩, ?_⟩
  · intro before hbefore
    rw [preeditAfter_append]
    exact hpreedit
  · intro text htext
    obtain htext | htext := List.mem_append.mp htext
    · exact absurd htext (hcommits _)
    · simp only [List.mem_singleton, ComposerAction.preedit.injEq] at htext
      rw [← htext] at hpreedit
      exact hangul_pendingText_clean hp' hpreedit
  · have hkana := congrArg Kana.decomp hdecomp
    simpa [Kana.decomp_append, normalise, held, Hangul.decomp] using hkana

theorem hangul_pushChars {p : Hangul.Pending} (hp : p.Valid) (text : List Char) :
    ∃ p' actions, Hangul.pushChars p text = .ok (p', actions) ∧
      Kept ⟨.hangul p⟩ text ⟨.hangul p'⟩ actions := by
  rw [Hangul.pushChars_eq_run]
  refine Transducer.run_history (I := fun text p' actions =>
    Kept ⟨.hangul p⟩ text ⟨.hangul p'⟩ actions) (Kept.refl hp) ?_ text
  intro text p' actions ch hkept
  obtain ⟨p'', actions', hpush, hkept'⟩ := hangul_pushChar hkept.valid ch
  exact ⟨p'', actions', hpush, hkept.trans hkept'⟩

theorem hangul_flush {p : Hangul.Pending} (hp : p.Valid) :
    ∃ actions, Hangul.flush p = .ok (.none, actions) ∧ Kept ⟨.hangul p⟩ [] ⟨.idle⟩ actions := by
  obtain ⟨text, htext, hdecomp⟩ := Hangul.pendingText_spec hp
  have hkana := congrArg Kana.decomp hdecomp
  cases text with
  | none =>
    refine ⟨[], ?_, ⟨trivial, ?_, nofun⟩, ?_⟩
    · simp [Hangul.flush, htext, bind, Except.bind, pure, Except.pure]
    · intro before hbefore
      exact htext.symm.trans hbefore
    · simpa [normalise, held, committed, Hangul.decomp] using hkana
  | some text =>
    refine ⟨[.commit text, .preedit none], ?_, ⟨trivial, fun _ _ => rfl, ?_⟩, ?_⟩
    · simp [Hangul.flush, htext, bind, Except.bind, pure, Except.pure]
    · simp
    · simpa [normalise, held, committed, Hangul.ComposerAction.committed, Hangul.decomp] using hkana

theorem hangul_backspace {p : Hangul.Pending} (hp : p.Valid) :
    ∃ p' actions, Hangul.backspace p = .ok (p', actions) ∧
      Mirrored ⟨.hangul p⟩ ⟨.hangul p'⟩ actions ∧ committed actions = [] := by
  cases p with
  | none => exact ⟨.none, [], rfl, (Kept.refl (a := ⟨.hangul .none⟩) hp).toMirrored, rfl⟩
  | initial l => exact ⟨.none, [.preedit none], rfl, ⟨trivial, fun _ _ => rfl, by simp⟩, rfl⟩
  | vowel v => exact ⟨.none, [.preedit none], rfl, ⟨trivial, fun _ _ => rfl, by simp⟩, rfl⟩
  | syllable l v t =>
    have hp' : (if t ≠ 0 then Hangul.Pending.syllable l v 0 else .initial l).Valid := by
      split
      · exact ⟨hp.1, hp.2.1, by decide⟩
      · exact hp.1
    obtain ⟨text, htext, -⟩ := Hangul.pendingText_spec hp'
    refine ⟨_, [.preedit text], ?_, ⟨hp', fun _ _ => htext, ?_⟩, rfl⟩
    · simp only [Hangul.backspace, htext]
      rfl
    · intro text' htext'
      simp only [List.mem_singleton, ComposerAction.preedit.injEq] at htext'
      rw [← htext'] at htext
      exact hangul_pendingText_clean hp' htext

/-! ### Kana -/

theorem kana_pushText {pending : Option Char} (hp : Kana.Valid pending) (text : String) :
    Kept ⟨.kana pending⟩ text.toList ⟨.kana (Kana.pushText pending text).1⟩
      (Kana.pushText pending text).2 := by
  have hspec := Kana.pushChars_spec pending text.toList
  have hvalid := Kana.pushChars_valid hp text.toList
  have hcommits := Kana.pushChars_commits pending text.toList
  revert hspec hvalid hcommits
  rw [Kana.pushText]
  generalize Kana.pushChars pending text.toList = r
  obtain ⟨pending', actions⟩ := r
  intro hspec hvalid hcommits
  refine ⟨⟨hvalid, ?_, ?_⟩, ?_⟩
  · intro before hbefore
    rw [preeditAfter_append]
    rfl
  · intro text' htext'
    obtain htext' | htext' := List.mem_append.mp htext'
    · exact absurd htext' (hcommits _)
    · simp only [List.mem_singleton, ComposerAction.preedit.injEq] at htext'
      exact kana_preeditText_clean hvalid htext'.symm
  · have hhangul := congrArg Hangul.decomp hspec
    simpa [normalise_eq, held, Hangul.decomp_append, committed_append, committed,
      Hangul.ComposerAction.committed] using hhangul

theorem kana_flush (pending : Option Char) :
    Kept ⟨.kana pending⟩ [] ⟨.idle⟩ (Kana.flush pending).2 := by
  refine ⟨⟨trivial, ?_, ?_⟩, ?_⟩
  · intro before hbefore
    cases pending with
    | none => exact hbefore
    | some ch => rfl
  · cases pending <;> simp [Kana.flush]
  · rw [Kana.committed_flush]
    rfl

/-! ### The dispatcher -/

theorem flush_spec {self : InputComposer} (h : self.Valid) :
    ∃ actions, self.flush = .ok (⟨.idle⟩, actions) ∧ Kept self [] ⟨.idle⟩ actions := by
  obtain ⟨backend⟩ := self
  cases backend with
  | idle => exact ⟨[], rfl, Kept.refl h⟩
  | hangul c =>
    obtain ⟨actions, hflush, hkept⟩ := hangul_flush h
    refine ⟨actions, ?_, hkept⟩
    simp [flush, hflush]
  | kana c => exact ⟨(Kana.flush c).2, rfl, kana_flush c⟩

theorem switchFor_spec {self : InputComposer} (h : self.Valid) (text : String) :
    ∃ c actions, self.switchFor text = .ok (c, actions) ∧ Kept self [] c actions := by
  unfold switchFor
  dsimp only
  split
  · exact ⟨self, [], rfl, Kept.refl h⟩
  · obtain ⟨actions, hflush, hkept⟩ := flush_spec h
    rw [hflush]
    cases detect text with
    | none => exact ⟨_, actions, rfl, hkept⟩
    | hangul => exact ⟨_, actions, rfl, hkept.fresh trivial rfl rfl⟩
    | kana => exact ⟨_, actions, rfl, hkept.fresh Kana.valid_none rfl rfl⟩

theorem pushBackend_spec {self : InputComposer} (h : self.Valid) (text : String) :
    ∃ c actions, self.pushBackend text = .ok (c, actions) ∧ Kept self text.toList c actions := by
  obtain ⟨backend⟩ := self
  cases backend with
  | idle =>
    refine ⟨⟨.idle⟩, [.commit text], rfl, ⟨h, fun _ hbefore => hbefore, by simp⟩, ?_⟩
    simp [held, committed, Hangul.ComposerAction.committed]
  | hangul c =>
    obtain ⟨c', actions, hpush, hkept⟩ := hangul_pushChars h text.toList
    refine ⟨_, actions, ?_, hkept⟩
    simp [pushBackend, Hangul.pushText, hpush]
  | kana c => exact ⟨_, _, rfl, kana_pushText h text⟩

theorem pushText_spec {self : InputComposer} (h : self.Valid) (text : String) :
    ∃ c actions, self.pushText text = .ok (c, actions) ∧ Kept self text.toList c actions := by
  unfold pushText
  split
  · rename_i hempty
    rw [String.isEmpty_iff.mp hempty]
    exact ⟨self, [], rfl, Kept.refl h⟩
  · obtain ⟨c, actions, hswitch, hkept⟩ := switchFor_spec h text
    obtain ⟨c', actions', hpush, hkept'⟩ := pushBackend_spec hkept.valid text
    refine ⟨c', actions ++ actions', ?_, hkept.trans hkept'⟩
    simp [hswitch, hpush, bind, Except.bind, pure, Except.pure]

theorem backspace_spec {self : InputComposer} (h : self.Valid) :
    ∃ c actions, self.backspace = .ok (c, actions) ∧ Mirrored self c actions ∧
      committed actions = [] := by
  obtain ⟨backend⟩ := self
  cases backend with
  | idle => exact ⟨_, [], rfl, (Kept.refl h).toMirrored, rfl⟩
  | hangul c =>
    obtain ⟨c', actions, hback, hmirrored, hcommitted⟩ := hangul_backspace h
    refine ⟨⟨.hangul c'⟩, actions, ?_, hmirrored, hcommitted⟩
    simp [backspace, hback]
  | kana c =>
    cases c with
    | none => exact ⟨_, [], rfl, (Kept.refl (a := ⟨.kana none⟩) h).toMirrored, rfl⟩
    | some ch =>
      exact ⟨_, [.preedit none], rfl, ⟨Kana.valid_none, fun _ _ => rfl, by simp⟩, rfl⟩

theorem held_clean {self : InputComposer} (h : self.Valid) : '\ufffd' ∉ self.held := by
  obtain ⟨backend⟩ := self
  cases backend with
  | idle => exact List.not_mem_nil
  | hangul c =>
    intro hmem
    obtain ⟨x, hx, hmem⟩ := List.mem_flatMap.mp hmem
    have hjamo := Hangul.mem_jamo_of_pending hx
    rw [kana_decompChar_jamo hjamo, List.mem_singleton] at hmem
    rw [← hmem] at hjamo
    exact absurd hjamo (by decide)
  | kana c =>
    intro hmem
    have hc := replacement_mem_normalise.mp hmem
    rw [Option.mem_toList] at hc
    exact absurd (h _ hc) (by decide)

/-- A call commits no replacement character that it did not take in. -/
theorem Kept.committed_clean {a c : InputComposer} {added : List Char}
    {actions : List ComposerAction} (h : Kept a added c actions) (ha : a.Valid)
    (hmem : '\ufffd' ∈ committed actions) : '\ufffd' ∈ added := by
  have hleft : '\ufffd' ∈ normalise (committed actions) ++ c.held :=
    List.mem_append_left _ (replacement_mem_normalise.mpr hmem)
  rw [h.text] at hleft
  obtain hheld | hadded := List.mem_append.mp hleft
  · exact absurd hheld (held_clean ha)
  · exact replacement_mem_normalise.mp hadded

/-! ## Runs -/

inductive Call where
  | pushText (text : String)
  | backspace
  | flush

def call (self : InputComposer) : Call → Except Fault (InputComposer × List ComposerAction)
  | .pushText text => self.pushText text
  | .backspace => self.backspace
  | .flush => self.flush

/-- The texts that were pushed, one after another. -/
def pushed (calls : List Call) : List Char :=
  calls.flatMap fun c =>
    match c with
    | .pushText text => text.toList
    | .backspace => []
    | .flush => []

/-- The text of an action, committed or shown. -/
def actionText : ComposerAction → List Char
  | .commit text => text.toList
  | .preedit text => text.toList.flatMap String.toList

theorem call_spec {self : InputComposer} (h : self.Valid) (cl : Call) :
    ∃ c actions, self.call cl = .ok (c, actions) ∧ Mirrored self c actions ∧
      ('\ufffd' ∈ committed actions → '\ufffd' ∈ pushed [cl]) := by
  cases cl with
  | pushText text =>
    obtain ⟨c, actions, hcall, hkept⟩ := pushText_spec h text
    refine ⟨c, actions, hcall, hkept.toMirrored, fun hmem => ?_⟩
    simpa [pushed] using hkept.committed_clean h hmem
  | backspace =>
    obtain ⟨c, actions, hcall, hmirrored, hcommitted⟩ := backspace_spec h
    exact ⟨c, actions, hcall, hmirrored, by simp [hcommitted]⟩
  | flush =>
    obtain ⟨actions, hcall, hkept⟩ := flush_spec h
    exact ⟨⟨.idle⟩, actions, hcall, hkept.toMirrored, fun hmem => hkept.committed_clean h hmem⟩

/-- A run of calls is like one call. -/
theorem run_spec (calls : List Call) :
    ∃ c actions, Transducer.run call {} calls = .ok (c, actions) ∧ Mirrored {} c actions ∧
      ('\ufffd' ∈ committed actions → '\ufffd' ∈ pushed calls) := by
  refine Transducer.run_history (I := fun calls c actions => Mirrored {} c actions ∧
    ('\ufffd' ∈ committed actions → '\ufffd' ∈ pushed calls)) ?_ ?_ calls
  · exact ⟨(Kept.refl (a := {}) trivial).toMirrored, fun hmem => nomatch hmem⟩
  · rintro calls c actions cl ⟨hmirrored, hclean⟩
    obtain ⟨c', actions', hcall, hmirrored', hclean'⟩ := call_spec hmirrored.valid cl
    refine ⟨c', actions', hcall, hmirrored.trans hmirrored', ?_⟩
    rw [committed_append, pushed, List.flatMap_append]
    intro hmem
    obtain hmem | hmem := List.mem_append.mp hmem
    · exact List.mem_append_left _ (hclean hmem)
    · exact List.mem_append_right _ (hclean' hmem)

/-- Over every run, no access to a table fails, the guest is shown what is held back, and the
replacement character is emitted only where it was pushed; and a flush leaves nothing. -/
theorem run_mirrored (calls : List Call) :
    ∃ c actions, Transducer.run call {} calls = .ok (c, actions) ∧ c.Valid ∧
      c.pendingText = .ok (preeditAfter none actions) ∧
      (∀ action ∈ actions, '\ufffd' ∈ actionText action → '\ufffd' ∈ pushed calls) ∧
      ∃ c' actions', c.flush = .ok (c', actions') ∧ c'.isEmpty = true ∧
        preeditAfter none (actions ++ actions') = none := by
  obtain ⟨c, actions, hrun, hmirrored, hclean⟩ := run_spec calls
  have hshown := hmirrored.shown none rfl
  obtain ⟨actions', hflush, hkept⟩ := flush_spec hmirrored.valid
  refine ⟨c, actions, hrun, hmirrored.valid, hshown, ?_, ⟨.idle⟩, actions', hflush, rfl, ?_⟩
  · rintro (text | text) haction hmem
    · exact hclean (List.mem_flatMap.mpr ⟨_, haction, hmem⟩)
    · obtain ⟨text', htext', htext⟩ := List.mem_flatMap.mp hmem
      rw [Option.mem_toList] at htext'
      subst htext'
      exact absurd htext (hmirrored.clean text' haction)
  · rw [preeditAfter_append]
    exact (Except.ok.inj (hkept.shown _ hshown)).symm

theorem chunks_spec (chunks : List String) :
    ∃ c actions, Transducer.run pushText {} chunks = .ok (c, actions) ∧
      Kept {} (chunks.flatMap String.toList) c actions := by
  refine Transducer.run_history (I := fun chunks c actions =>
    Kept {} (chunks.flatMap String.toList) c actions) (Kept.refl (a := {}) trivial) ?_ chunks
  intro chunks c actions text hkept
  obtain ⟨c', actions', hpush, hkept'⟩ := pushText_spec hkept.valid text
  refine ⟨c', actions', hpush, ?_⟩
  simpa using hkept.trans hkept'

/-- Nothing of a sequence of chunks is lost or reordered, up to what it is taken apart into. -/
theorem chunks_lossless (chunks : List String) :
    ∃ c actions c' actions', Transducer.run pushText {} chunks = .ok (c, actions) ∧
      c.flush = .ok (c', actions') ∧
      normalise (committed (actions ++ actions')) = normalise (chunks.flatMap String.toList) := by
  obtain ⟨c, actions, hrun, hkept⟩ := chunks_spec chunks
  obtain ⟨actions', hflush, hkept'⟩ := flush_spec hkept.valid
  refine ⟨c, actions, ⟨.idle⟩, actions', hrun, hflush, ?_⟩
  simpa [held] using (hkept.trans hkept').text

end InputComposer

end VBox
