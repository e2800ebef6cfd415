import VBox.Viewer.Composer

/-!
# Viewer.Chunking

How the committed text depends on where the host cuts a text into chunks. A chunk of jamo always
goes to the Hangul composer, so for Hangul the cuts do not matter. A chunk of kana is only held
back when it has a mark itself: one without goes past the composer, and a mark in the next chunk
comes too late for its last kana.

`committedText_eq_iff` says for which cuts the text stays the same.
-/

namespace VBox
namespace InputComposer

open Hangul (committed committed_append)

/-- What is committed in the end of chunks that are pushed one after another. -/
def committedText (chunks : List String) : Except Fault (List Char) := do
  let (c, actions) ← Transducer.run pushText {} chunks
  let (_, actions') ← c.flush
  return committed (actions ++ actions')

/-- No chunk without a mark ends in a kana that pairs with the mark that comes next. -/
def keepsPairs : List String → Bool
  | [] => true
  | chunk :: rest =>
    (chunk.toList.any Kana.isVoicingMark ||
      !chunk.toList.getLast?.any fun base => Kana.pairs base (rest.flatMap String.toList)) &&
    keepsPairs rest

theorem committedText_of_run {chunks : List String} {c c' : InputComposer}
    {actions actions' : List ComposerAction}
    (hrun : Transducer.run pushText {} chunks = .ok (c, actions))
    (hflush : c.flush = .ok (c', actions')) :
    committedText chunks = .ok (committed actions ++ committed actions') := by
  simp [committedText, hrun, hflush, committed_append, bind, Except.bind, pure, Except.pure]

theorem pushText_ok {self c c' : InputComposer} {text : String} {actions actions' : List ComposerAction}
    (hne : text.toList ≠ []) (hswitch : self.switchFor text = .ok (c, actions))
    (hpush : c.pushBackend text = .ok (c', actions')) :
    self.pushText text = .ok (c', actions ++ actions') := by
  have hempty : ¬ text.isEmpty = true := by
    intro hempty
    exact hne (by rw [String.isEmpty_iff.mp hempty]; rfl)
  rw [pushText, if_neg hempty, hswitch]
  simp [hpush, bind, Except.bind, pure, Except.pure]

theorem switchFor_of_matches {self : InputComposer} {text : String}
    (h : self.backendMatches (detect text) = true) : self.switchFor text = .ok (self, []) :=
  if_pos h

/-! ## Hangul -/

theorem hangul_canCompose_iff {text : String} :
    Hangul.canCompose text = true ↔
      text.toList ≠ [] ∧ ∀ ch ∈ text.toList, Hangul.isCompatJamo ch = true := by
  simp [Hangul.canCompose]

theorem detect_hangul {text : String} (h : Hangul.canCompose text = true) :
    detect text = .hangul := if_pos h

/-- Either a first chunk of jamo, or one that follows another. -/
theorem pushText_hangul {self : InputComposer} {p p' : Hangul.Pending} {text : String}
    {actions : List ComposerAction} (hself : self = ⟨.hangul p⟩ ∨ (self = {} ∧ p = .none))
    (h : Hangul.canCompose text = true)
    (hpush : Hangul.pushChars p text.toList = .ok (p', actions)) :
    self.pushText text = .ok (⟨.hangul p'⟩, actions) := by
  have hbackend : pushBackend ⟨.hangul p⟩ text = .ok (⟨.hangul p'⟩, actions) := by
    simp [pushBackend, Hangul.pushText, hpush]
  have hswitch : self.switchFor text = .ok (⟨.hangul p⟩, []) := by
    obtain rfl | ⟨rfl, rfl⟩ := hself
    · refine switchFor_of_matches ?_
      rw [detect_hangul h]
      rfl
    · simp only [switchFor, detect_hangul h]
      rfl
  exact pushText_ok (hangul_canCompose_iff.mp h).1 hswitch hbackend

/-- Chunks of jamo are taken in as one text. -/
theorem run_hangul {self : InputComposer} {p : Hangul.Pending} {chunks : List String}
    (hp : p.Valid) (hself : self = ⟨.hangul p⟩ ∨ (self = {} ∧ p = .none))
    (h : ∀ chunk ∈ chunks, Hangul.canCompose chunk = true) (hne : chunks ≠ []) :
    ∃ p' actions, Transducer.run pushText self chunks = .ok (⟨.hangul p'⟩, actions) ∧
      Hangul.pushChars p (chunks.flatMap String.toList) = .ok (p', actions) := by
  induction chunks generalizing p self with
  | nil => exact absurd rfl hne
  | cons chunk chunks ih =>
    obtain ⟨p₁, actions₁, h₁, hkept⟩ := hangul_pushChars hp chunk.toList
    have hpush := pushText_hangul hself (h chunk List.mem_cons_self) h₁
    cases chunks with
    | nil =>
      refine ⟨p₁, actions₁, ?_, ?_⟩
      · rw [Transducer.run_cons hpush]
        simp [Except.map]
      · simpa using h₁
    | cons chunk' chunks =>
      obtain ⟨p₂, actions₂, hrun, h₂⟩ := ih hkept.valid (.inl rfl)
        (fun c hc => h c (List.mem_cons_of_mem _ hc)) (List.cons_ne_nil _ _)
      refine ⟨p₂, actions₁ ++ actions₂, ?_, ?_⟩
      · rw [Transducer.run_cons hpush, hrun]
        rfl
      · rw [Hangul.pushChars_eq_run] at h₁ h₂ ⊢
        rw [List.flatMap_cons, Transducer.run_append h₁, h₂]
        rfl

/-- The cuts in a text of jamo do not matter. -/
theorem committedText_hangul {text : String} {chunks : List String}
    (htext : chunks.flatMap String.toList = text.toList)
    (hne : ∀ chunk ∈ chunks, chunk.toList ≠ []) (h : Hangul.canCompose text = true) :
    ∃ out, committedText chunks = .ok out ∧ committedText [text] = .ok out := by
  obtain ⟨htext', hjamo⟩ := hangul_canCompose_iff.mp h
  have hchunks : ∀ chunk ∈ chunks, Hangul.canCompose chunk = true := by
    intro chunk hchunk
    refine hangul_canCompose_iff.mpr ⟨hne chunk hchunk, fun ch hch => hjamo ch ?_⟩
    rw [← htext]
    exact List.mem_flatMap.mpr ⟨chunk, hchunk, hch⟩
  have hnil : chunks ≠ [] := by
    rintro rfl
    exact htext' htext.symm
  have hrun : ∀ chunks : List String, chunks ≠ [] →
      (∀ chunk ∈ chunks, Hangul.canCompose chunk = true) → chunks.flatMap String.toList = text.toList →
      ∃ p actions, Transducer.run pushText {} chunks = .ok (⟨.hangul p⟩, actions) ∧
        Hangul.pushChars .none text.toList = .ok (p, actions) := by
    intro chunks hnil hchunks htext
    rw [← htext]
    exact run_hangul (p := .none) trivial (.inr ⟨rfl, rfl⟩) hchunks hnil
  obtain ⟨p, actions, hrun₁, hpush⟩ := hrun chunks hnil hchunks htext
  obtain ⟨p', actions', hrun₂, hpush'⟩ :=
    hrun [text] (List.cons_ne_nil _ _) (by simpa using h) (by simp)
  obtain ⟨rfl, rfl⟩ := Prod.mk.inj (Except.ok.inj (hpush.symm.trans hpush'))
  obtain ⟨p₁, actions₁, hpush₁, hkept⟩ := hangul_pushChars (p := .none) trivial text.toList
  obtain ⟨rfl, rfl⟩ := Prod.mk.inj (Except.ok.inj (hpush.symm.trans hpush₁))
  obtain ⟨actions₂, hflush, -⟩ := flush_spec hkept.valid
  exact ⟨_, committedText_of_run hrun₁ hflush, committedText_of_run hrun₂ hflush⟩

/-! ## Kana -/

theorem not_compatJamo_of_kana {ch : Char} (h : Kana.isKanaOrMark ch = true) :
    Hangul.isCompatJamo ch = false := by
  rw [Bool.eq_false_iff]
  intro hjamo
  simp only [Hangul.isCompatJamo, Bool.and_eq_true, decide_eq_true_eq] at hjamo
  rw [Kana.isKanaOrMark, Bool.or_eq_true] at h
  obtain h | h := h
  · simp only [Kana.isKanaBase, Bool.and_eq_true, Bool.or_eq_true, decide_eq_true_eq] at h
    omega
  · obtain rfl | rfl | rfl | rfl := Kana.isVoicingMark_iff.mp h <;> exact absurd hjamo (by decide)

theorem detect_kana {text : String} (hne : text.toList ≠ [])
    (h : ∀ ch ∈ text.toList, Kana.isKanaOrMark ch = true) :
    detect text = if text.toList.any Kana.isVoicingMark then .kana else .none := by
  have hhangul : Hangul.canCompose text = false := by
    obtain ⟨ch, hch⟩ := List.exists_mem_of_ne_nil _ hne
    rw [Bool.eq_false_iff]
    intro hhangul
    have hjamo := (hangul_canCompose_iff.mp hhangul).2 ch hch
    rw [not_compatJamo_of_kana (h ch hch)] at hjamo
    cases hjamo
  have hkana : Kana.canCompose text = text.toList.any Kana.isVoicingMark := by
    rw [Kana.canCompose, List.all_eq_true.mpr h]
    simp [hne]
  rw [detect, hhangul, hkana]
  rfl

/-- The kana composer with `pending` held back, or no composer at all. -/
def Holds (self : InputComposer) (pending : Option Char) : Prop :=
  self = ⟨.kana pending⟩ ∨ (self = {} ∧ pending = none)

/-- A chunk with a mark goes to the kana composer. -/
theorem pushText_marked {self : InputComposer} {pending : Option Char} {text : String}
    (hself : Holds self pending) (hne : text.toList ≠ [])
    (h : ∀ ch ∈ text.toList, Kana.isKanaOrMark ch = true)
    (hmark : text.toList.any Kana.isVoicingMark = true) :
    ∃ actions, self.pushText text = .ok (⟨.kana (Kana.pushChars pending text.toList).1⟩, actions) ∧
      committed actions = committed (Kana.pushChars pending text.toList).2 := by
  have hdetect : detect text = .kana := (detect_kana hne h).trans (if_pos hmark)
  have hswitch : self.switchFor text = .ok (⟨.kana pending⟩, []) := by
    obtain rfl | ⟨rfl, rfl⟩ := hself
    · refine switchFor_of_matches ?_
      rw [hdetect]
      rfl
    · simp only [switchFor, hdetect]
      rfl
  refine ⟨_, pushText_ok hne hswitch rfl, ?_⟩
  simp [Kana.pushText, committed, Hangul.ComposerAction.committed]

/-- A chunk without one goes past it, after what was held back. -/
theorem pushText_plain {self : InputComposer} {pending : Option Char} {text : String}
    (hself : Holds self pending) (hne : text.toList ≠ [])
    (h : ∀ ch ∈ text.toList, Kana.isKanaOrMark ch = true)
    (hmark : text.toList.any Kana.isVoicingMark = false) :
    ∃ actions, self.pushText text = .ok ({}, actions) ∧
      committed actions = pending.toList ++ text.toList := by
  have hdetect : detect text = .none := by
    rw [detect_kana hne h, hmark]
    rfl
  have hswitch : ∃ actions, self.switchFor text = .ok ({}, actions) ∧
      committed actions = pending.toList := by
    obtain rfl | ⟨rfl, rfl⟩ := hself
    · refine ⟨(Kana.flush pending).2, ?_, Kana.committed_flush pending⟩
      simp only [switchFor, hdetect]
      rfl
    · refine ⟨[], ?_, rfl⟩
      simp only [switchFor, hdetect]
      rfl
  obtain ⟨actions, hswitch, hcommitted⟩ := hswitch
  refine ⟨_, pushText_ok hne hswitch rfl, ?_⟩
  rw [committed_append, hcommitted]
  simp [committed, Hangul.ComposerAction.committed]

/-- `out` came of the chunks: it is the text they are together, or it is longer because a mark that
was cut off came too late. -/
def Came (chunks : List String) (whole out : List Char) : Prop :=
  (keepsPairs chunks = true ∧ out = whole) ∨ (keepsPairs chunks = false ∧ whole.length < out.length)

theorem Came.length_le {chunks : List String} {whole out : List Char} (h : Came chunks whole out) :
    whole.length ≤ out.length := by
  obtain ⟨-, rfl⟩ | ⟨-, hlt⟩ := h
  · exact Nat.le_refl _
  · exact hlt.le

/-- A chunk in front, after whose text the rest comes out as before. -/
theorem Came.cons {chunk : String} {chunks : List String} {whole out : List Char}
    (pre : List Char) (h : Came chunks whole out)
    (hchunk : (chunk.toList.any Kana.isVoicingMark = true) ∨
      ∀ last ∈ chunk.toList.getLast?, Kana.pairs last (chunks.flatMap String.toList) = false) :
    Came (chunk :: chunks) (pre ++ whole) (pre ++ out) := by
  have hkeeps : keepsPairs (chunk :: chunks) = keepsPairs chunks := by
    rw [keepsPairs, Bool.and_eq_right_iff_imp]
    intro _
    obtain hmark | hpairs := hchunk
    · simp [hmark]
    · cases hlast : chunk.toList.getLast? with
      | none => simp
      | some last => simp [hpairs last hlast]
  rw [Came, hkeeps]
  obtain ⟨hkeep, rfl⟩ | ⟨hkeep, hlt⟩ := h
  · exact .inl ⟨hkeep, rfl⟩
  · refine .inr ⟨hkeep, ?_⟩
    simpa using hlt

/-- The last kana is committed before its mark comes, and so are both. -/
theorem Came.pair {chunk : String} {chunks : List String} {init out : List Char} {last : Char}
    (pre : List Char) (h : Came chunks (Kana.composed none (chunks.flatMap String.toList)) out)
    (hmark : chunk.toList.any Kana.isVoicingMark = false) (hlast : chunk.toList = init ++ [last])
    (hpairs : Kana.pairs last (chunks.flatMap String.toList) = true) :
    Came (chunk :: chunks) (pre ++ Kana.composed (some last) (chunks.flatMap String.toList))
      (pre ++ [last] ++ out) := by
  have hkeep : keepsPairs (chunk :: chunks) = false := by
    rw [keepsPairs, hmark, hlast]
    simp [hpairs]
  have hle := h.length_le
  refine .inr ⟨hkeep, ?_⟩
  cases htext : chunks.flatMap String.toList with
  | nil =>
    rw [htext] at hpairs
    cases hpairs
  | cons mark rest =>
    rw [htext] at hpairs hle
    obtain ⟨hismark, out, hout⟩ := Kana.pairs_cons.mp hpairs
    rw [Kana.composed_pair hismark hout]
    rw [Kana.composed_none_mark hismark] at hle
    simp only [List.length_append, List.length_cons, List.length_nil] at hle ⊢
    omega

/-- A text of kana and marks that has no mark. -/
theorem isKanaBase_of_unmarked {text : List Char}
    (h : ∀ ch ∈ text, Kana.isKanaOrMark ch = true) (hmark : text.any Kana.isVoicingMark = false) :
    ∀ ch ∈ text, Kana.isKanaBase ch = true := by
  intro ch hch
  have hor := h ch hch
  rw [Kana.isKanaOrMark, Bool.or_eq_true] at hor
  exact hor.resolve_right (List.any_eq_false.mp hmark ch hch)

theorem run_kana {chunks : List String} {self : InputComposer} {pending : Option Char}
    (hself : Holds self pending) (hne : ∀ chunk ∈ chunks, chunk.toList ≠ [])
    (h : ∀ chunk ∈ chunks, ∀ ch ∈ chunk.toList, Kana.isKanaOrMark ch = true) :
    ∃ c actions pending', Transducer.run pushText self chunks = .ok (c, actions) ∧
      Holds c pending' ∧
      Came chunks (Kana.composed pending (chunks.flatMap String.toList))
        (committed actions ++ pending'.toList) := by
  induction chunks generalizing self pending with
  | nil => exact ⟨self, [], pending, rfl, hself, .inl ⟨rfl, rfl⟩⟩
  | cons chunk chunks ih =>
    have hne' : ∀ c ∈ chunks, c.toList ≠ [] := fun c hc => hne c (List.mem_cons_of_mem _ hc)
    have h' : ∀ c ∈ chunks, ∀ ch ∈ c.toList, Kana.isKanaOrMark ch = true :=
      fun c hc => h c (List.mem_cons_of_mem _ hc)
    have hchunk := hne chunk List.mem_cons_self
    have hkana := h chunk List.mem_cons_self
    rw [List.flatMap_cons, Kana.composed_append]
    cases hmark : chunk.toList.any Kana.isVoicingMark with
    | true =>
      obtain ⟨actions, hpush, hcommitted⟩ := pushText_marked hself hchunk hkana hmark
      obtain ⟨c, actions', pending', hrun, hholds, hcame⟩ := ih (.inl rfl) hne' h'
      refine ⟨c, actions ++ actions', pending', ?_, hholds, ?_⟩
      · rw [Transducer.run_cons hpush, hrun]
        rfl
      · rw [committed_append, hcommitted, List.append_assoc]
        exact hcame.cons _ (.inl hmark)
    | false =>
      obtain ⟨actions, hpush, hcommitted⟩ := pushText_plain hself hchunk hkana hmark
      obtain ⟨c, actions', pending', hrun, hholds, hcame⟩ := ih (.inr ⟨rfl, rfl⟩) hne' h'
      refine ⟨c, actions ++ actions', pending', ?_, hholds, ?_⟩
      · rw [Transducer.run_cons hpush, hrun]
        rfl
      obtain ⟨init, last, hlast⟩ : ∃ init last, chunk.toList = init ++ [last] :=
        ⟨_, _, (List.dropLast_concat_getLast hchunk).symm⟩
      have hbases := isKanaBase_of_unmarked hkana hmark
      rw [hlast] at hbases
      obtain ⟨hheld, htext⟩ := Kana.pushChars_bases pending hbases
      rw [committed_append, hcommitted, hlast, hheld, htext]
      cases hpairs : Kana.pairs last (chunks.flatMap String.toList) with
      | false =>
        rw [Kana.composed_some hpairs]
        have hcons : Came (chunk :: chunks) _ _ := hcame.cons (pending.toList ++ init ++ [last])
          (.inr (by simp [hlast, hpairs]))
        simpa using hcons
      | true =>
        simpa using hcame.pair (pending.toList ++ init) hmark hlast hpairs

theorem flush_holds {self : InputComposer} {pending : Option Char} (h : Holds self pending) :
    ∃ actions, self.flush = .ok ({}, actions) ∧ committed actions = pending.toList := by
  obtain rfl | ⟨rfl, rfl⟩ := h
  · exact ⟨(Kana.flush pending).2, rfl, Kana.committed_flush pending⟩
  · exact ⟨[], rfl, rfl⟩

theorem committedText_kana {chunks : List String} (hne : ∀ chunk ∈ chunks, chunk.toList ≠ [])
    (h : ∀ chunk ∈ chunks, ∀ ch ∈ chunk.toList, Kana.isKanaOrMark ch = true) :
    ∃ out, committedText chunks = .ok out ∧
      Came chunks (Kana.composed none (chunks.flatMap String.toList)) out := by
  obtain ⟨c, actions, pending, hrun, hholds, hcame⟩ := run_kana (.inr ⟨rfl, rfl⟩) hne h
  obtain ⟨actions', hflush, hcommitted⟩ := flush_holds hholds
  refine ⟨_, committedText_of_run hrun hflush, ?_⟩
  rw [hcommitted]
  exact hcame

/-! ## The cuts that do not matter -/

/-- No jamo is a mark. -/
theorem keepsPairs_of_hangul {chunks : List String}
    (h : ∀ ch ∈ chunks.flatMap String.toList, Hangul.isCompatJamo ch = true) :
    keepsPairs chunks = true := by
  induction chunks with
  | nil => rfl
  | cons chunk chunks ih =>
    rw [List.flatMap_cons] at h
    have hrest := fun ch hch => h ch (List.mem_append_right _ hch)
    rw [keepsPairs, ih hrest, Bool.and_true, Bool.or_eq_true]
    right
    have hpairs : ∀ base, Kana.pairs base (chunks.flatMap String.toList) = false := by
      intro base
      cases htext : chunks.flatMap String.toList with
      | nil => rfl
      | cons ch rest =>
        rw [Bool.eq_false_iff]
        intro hpairs
        have hmark := (Kana.pairs_cons.mp hpairs).1
        have hjamo := hrest ch (by rw [htext]; exact List.mem_cons_self)
        rw [not_compatJamo_of_kana (by simp [Kana.isKanaOrMark, hmark])] at hjamo
        cases hjamo
    simp [hpairs]

/-- A text that can be composed is committed the same, however it is cut, if and only if no chunk
without a mark ends in a kana whose mark comes next; so for jamo the cuts do not matter. -/
theorem committedText_eq_iff {text : String} {chunks : List String} (hcompose : canCompose text = true)
    (htext : chunks.flatMap String.toList = text.toList)
    (hne : ∀ chunk ∈ chunks, chunk.toList ≠ []) :
    ∃ out whole, committedText chunks = .ok out ∧ committedText [text] = .ok whole ∧
      (out = whole ↔ keepsPairs chunks = true) ∧
      (Hangul.canCompose text = true → out = whole) := by
  rw [canCompose, Bool.or_eq_true] at hcompose
  by_cases hhangul : Hangul.canCompose text = true
  · obtain ⟨out, hchunks, hwhole⟩ := committedText_hangul htext hne hhangul
    have hkeeps : keepsPairs chunks = true := by
      apply keepsPairs_of_hangul
      rw [htext]
      exact (hangul_canCompose_iff.mp hhangul).2
    exact ⟨out, out, hchunks, hwhole, iff_of_true rfl hkeeps, fun _ => rfl⟩
  · have hkana := hcompose.resolve_left hhangul
    simp only [Kana.canCompose, Bool.and_eq_true, List.all_eq_true] at hkana
    obtain ⟨⟨htext', hchars⟩, -⟩ := hkana
    have hchunkChars : ∀ chunk ∈ chunks, ∀ ch ∈ chunk.toList, Kana.isKanaOrMark ch = true := by
      intro chunk hchunk ch hch
      refine hchars ch ?_
      rw [← htext]
      exact List.mem_flatMap.mpr ⟨chunk, hchunk, hch⟩
    obtain ⟨out, hout, hcame⟩ := committedText_kana hne hchunkChars
    obtain ⟨whole, hwhole, hcame'⟩ : ∃ whole, committedText [text] = .ok whole ∧ Came [text] _ whole :=
      committedText_kana (by simpa using htext') (by simpa using hchars)
    have heq : whole = Kana.composed none text.toList := by
      obtain ⟨-, heq⟩ | ⟨hkeeps, -⟩ := hcame'
      · simpa using heq
      · simp [keepsPairs, Kana.pairs] at hkeeps
    rw [htext, ← heq] at hcame
    refine ⟨out, whole, hout, hwhole, ?_, fun h => absurd h hhangul⟩
    obtain ⟨hkeeps, rfl⟩ | ⟨hkeeps, hlt⟩ := hcame
    · exact iff_of_true rfl hkeeps
    · refine iff_of_false ?_ (by simp [hkeeps])
      rintro rfl
      exact Nat.lt_irrefl _ hlt

theorem committedText_eq_iff_cut :
    canCompose "か\u3099き\u3099" = true ∧
      ∃ out whole, committedText ["か\u3099き", "\u3099"] = .ok out ∧
        committedText ["か\u3099き\u3099"] = .ok whole ∧
        (out = whole ↔ keepsPairs ["か\u3099き", "\u3099"] = true) ∧
        (Hangul.canCompose "か\u3099き\u3099" = true → out = whole) :=
  ⟨by decide, committedText_eq_iff (by decide) (by decide) (by decide)⟩

/-- A kana that comes by itself is committed before its mark comes. -/
theorem committedText_depends_on_cut :
    ¬ ∀ (text : String) (chunks : List String), canCompose text = true →
      chunks.flatMap String.toList = text.toList → (∀ chunk ∈ chunks, chunk.toList ≠ []) →
      committedText chunks = committedText [text] := by
  intro h
  have heq := h "か\u3099" ["か", "\u3099"] (by decide) (by decide) (by decide)
  have hcut : committedText ["か", "\u3099"] = .ok ['か', '\u3099'] := rfl
  have hwhole : committedText ["か\u3099"] = .ok ['が'] := rfl
  rw [hcut, hwhole] at heq
  exact absurd (Except.ok.inj heq) (by decide)

end InputComposer
end VBox
