import VBox.Lib.Text

/-!
# Cli.IconNames

The file names of cached icons. The CLI writes an icon under `sanitize_icon_id` of the app's id
(`crates/vbox-cli/src/runtime.rs`), and the viewer looks for it under `sanitize_app_id`
(`crates/client/src/app_icon.rs`).

`iconNames_agree`: both give the same name, with no dash at its ends and none after another.
-/

namespace VBox.IconNames

/-- The loops' `out` and `last_was_dash`. -/
structure Loop where
  out : List Char
  lastWasDash : Bool

def Loop.start : Loop := { out := [], lastWasDash := true }

/-- `while out.ends_with('-') { out.pop(); }` -/
def popDashes (out : List Char) : List Char := out.rdropWhile (· == '-')

/-- The body of the CLI's loop. -/
def sanitizeIconIdStep (s : Loop) (ch : Char) : Loop :=
  let mapped := if ch.isAlphanum ∨ ch = '.' ∨ ch = '_' ∨ ch = '-' then ch else '-'
  if mapped = '-' then
    if s.lastWasDash then s else { out := s.out ++ ['-'], lastWasDash := true }
  else { out := s.out ++ [mapped], lastWasDash := false }

def sanitizeIconId (value : List Char) : List Char :=
  popDashes (value.foldl sanitizeIconIdStep .start).out

/-- The body of the viewer's loop. -/
def sanitizeAppIdStep (s : Loop) (ch : Char) : Loop :=
  let mapped := if ch.isAlphanum ∨ ch = '.' ∨ ch = '_' ∨ ch = '-' then ch else '-'
  if mapped = '-' then
    if s.lastWasDash then s else { out := s.out ++ ['-'], lastWasDash := true }
  else { out := s.out ++ [mapped], lastWasDash := false }

def sanitizeAppId (appId : List Char) : List Char :=
  popDashes (appId.foldl sanitizeAppIdStep .start).out

theorem sanitizeAppId_eq (value : List Char) : sanitizeAppId value = sanitizeIconId value := rfl

/-! ## The loop -/

/-- An ASCII letter or digit, or one of `.`, `_` and `-`. -/
def IconChar (ch : Char) : Prop := ch.isAlphanum ∨ ch = '.' ∨ ch = '_' ∨ ch = '-'

/-- What the loop has written: no dash first, and none after another. -/
structure Collapsed (out : List Char) : Prop where
  chars : ∀ ch ∈ out, IconChar ch
  first : out.head? ≠ some '-'
  single : ¬ ['-', '-'] <:+: out

/-- A name: what the loop writes, without a dash at the end. -/
structure IconName (s : List Char) : Prop extends Collapsed s where
  last : s.getLast? ≠ some '-'

namespace Loop

/-- The loop knows whether a dash may be written. -/
structure Inv (s : Loop) : Prop extends Collapsed s.out where
  flag : s.lastWasDash = true ↔ s.out = [] ∨ s.out.getLast? = some '-'

theorem start_inv : start.Inv where
  chars _ hch := (nomatch hch)
  first h := (nomatch h)
  single h := (nomatch (List.infix_nil.1 h))
  flag := iff_of_true rfl (.inl rfl)

end Loop

/-- A character is written behind what is there, but no dash first or behind a dash. -/
theorem Collapsed.push {out : List Char} (h : Collapsed out) {ch : Char} (hch : IconChar ch)
    (hdash : ch = '-' → out ≠ [] ∧ out.getLast? ≠ some '-') : Collapsed (out ++ [ch]) where
  chars ch' hmem := by
    obtain hmem | hmem := List.mem_append.1 hmem
    · exact h.chars ch' hmem
    · rwa [List.mem_singleton.1 hmem]
  first hhead := by
    cases out with
    | nil => exact (hdash (Option.some.inj hhead)).1 rfl
    | cons c rest => exact h.first hhead
  single hdashes := by
    obtain ⟨pre, hpre⟩ | hinside := List.infix_concat_iff.1 hdashes
    · have hcut : (pre ++ ['-']) ++ ['-'] = out ++ [ch] := by rw [← hpre, List.append_assoc]; rfl
      obtain ⟨rfl, hlast⟩ := List.append_inj' hcut rfl
      cases hlast
      exact (hdash rfl).2 List.getLast?_concat
    · exact h.single hinside

namespace Loop

theorem iconChar_mapped (ch : Char) :
    IconChar (if ch.isAlphanum ∨ ch = '.' ∨ ch = '_' ∨ ch = '-' then ch else '-') := by
  split
  · assumption
  · exact .inr (.inr (.inr rfl))

theorem Inv.step {s : Loop} (h : s.Inv) (ch : Char) : (sanitizeIconIdStep s ch).Inv := by
  have hmapped := iconChar_mapped ch
  simp only [sanitizeIconIdStep]
  generalize (if ch.isAlphanum ∨ ch = '.' ∨ ch = '_' ∨ ch = '-' then ch else '-') = mapped at *
  split
  · rename_i hdash
    subst hdash
    split
    · exact h
    · rename_i hflag
      rw [h.flag, not_or] at hflag
      exact
        { h.toCollapsed.push hmapped fun _ => hflag with
          flag := iff_of_true rfl (.inr List.getLast?_concat) }
  · rename_i hother
    have hlast : (s.out ++ [mapped]).getLast? = some mapped := List.getLast?_concat
    exact
      { h.toCollapsed.push hmapped fun hdash => absurd hdash hother with
        flag := by
          rw [hlast, Option.some.injEq]
          exact iff_of_false Bool.false_ne_true
            (not_or.2 ⟨List.append_ne_nil_of_right_ne_nil _ (List.cons_ne_nil _ _), hother⟩) }

theorem Inv.run {s : Loop} (h : s.Inv) (value : List Char) :
    (value.foldl sanitizeIconIdStep s).Inv := by
  induction value generalizing s with
  | nil => exact h
  | cons ch rest ih => exact ih (h.step ch)

end Loop

/-- Taking dashes from the end leaves a name. -/
theorem Collapsed.popDashes {out : List Char} (h : Collapsed out) : IconName (popDashes out) := by
  have hkept : IconNames.popDashes out <+: out := List.rdropWhile_prefix _ _
  refine { chars := fun ch hch => h.chars ch (hkept.subset hch), first := fun hhead => ?_,
           single := fun hdashes => h.single (hdashes.trans hkept.isInfix),
           last := fun hlast => ?_ }
  · obtain ⟨rest, hrest⟩ := hkept
    refine h.first ?_
    rw [← hrest, List.head?_append, hhead]
    rfl
  · obtain ⟨pre, hpre⟩ := List.getLast?_eq_some_iff.1 hlast
    have hne : IconNames.popDashes out ≠ [] := by
      rw [hpre]
      exact List.append_ne_nil_of_right_ne_nil _ (List.cons_ne_nil _ _)
    have hnot := List.rdropWhile_last_not (· == '-') out hne
    rw [List.getLast?_eq_some_getLast hne, Option.some.injEq] at hlast
    exact hnot (beq_iff_eq.2 hlast)

theorem sanitizeIconId_iconName (value : List Char) : IconName (sanitizeIconId value) :=
  (Loop.start_inv.run value).toCollapsed.popDashes

/-! ## Names stay as they are -/

/-- A dash is not written behind another, and no name has one there. -/
theorem Loop.Inv.run_name {s : Loop} (h : s.Inv) {rest : List Char}
    (hname : Collapsed (s.out ++ rest)) :
    (rest.foldl sanitizeIconIdStep s).out = s.out ++ rest := by
  induction rest generalizing s with
  | nil => rw [List.append_nil]; rfl
  | cons ch rest ih =>
    have hch : IconChar ch := hname.chars ch (List.mem_append_right _ List.mem_cons_self)
    have hstep : (sanitizeIconIdStep s ch).out = s.out ++ [ch] := by
      simp only [sanitizeIconIdStep]
      have hmapped : (if ch.isAlphanum ∨ ch = '.' ∨ ch = '_' ∨ ch = '-' then ch else '-') = ch :=
        if_pos hch
      rw [hmapped]
      split
      · rename_i hdash
        subst hdash
        have hflag : ¬ s.lastWasDash = true := by
          rw [h.flag]
          rintro (hnil | hlast)
          · rw [hnil] at hname
            exact hname.first rfl
          · obtain ⟨pre, hpre⟩ := List.getLast?_eq_some_iff.1 hlast
            exact hname.single ⟨pre, rest, by rw [hpre, List.append_assoc, List.append_assoc]; rfl⟩
        rw [if_neg hflag]
      · rfl
    rw [List.append_cons, ← hstep] at hname ⊢
    exact ih (h.step ch) hname

theorem IconName.sanitizeIconId_eq {s : List Char} (h : IconName s) : sanitizeIconId s = s := by
  have hrun : (s.foldl sanitizeIconIdStep .start).out = s := Loop.start_inv.run_name h.toCollapsed
  rw [sanitizeIconId, hrun]
  refine List.rdropWhile_eq_self_iff.2 fun hne hdash => h.last ?_
  rw [List.getLast?_eq_some_getLast hne, Option.some.injEq]
  exact beq_iff_eq.1 hdash

/-- The viewer looks for an icon under the name the CLI writes it to: one without a dash at its ends
or behind another dash, which both leave as it is. -/
theorem iconNames_agree (value : List Char) :
    sanitizeAppId value = sanitizeIconId value ∧
      (∀ ch ∈ sanitizeIconId value, ch.isAlphanum ∨ ch = '.' ∨ ch = '_' ∨ ch = '-') ∧
      (sanitizeIconId value).head? ≠ some '-' ∧ (sanitizeIconId value).getLast? ≠ some '-' ∧
      ¬ ['-', '-'] <:+: sanitizeIconId value ∧
      sanitizeIconId (sanitizeIconId value) = sanitizeIconId value ∧
      sanitizeAppId (sanitizeIconId value) = sanitizeIconId value := by
  have hname := sanitizeIconId_iconName value
  refine ⟨sanitizeAppId_eq value, hname.chars, hname.first, hname.last, hname.single,
    hname.sanitizeIconId_eq, ?_⟩
  rw [sanitizeAppId_eq]
  exact hname.sanitizeIconId_eq

example : sanitizeIconId "--org.kde (dolphin) ".toList = "org.kde-dolphin".toList := by decide

end VBox.IconNames
