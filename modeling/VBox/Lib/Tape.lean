import Mathlib.Data.List.Basic

/-!
# Lib.Tape

A writer that holds its last characters back. What is written are characters, which may be taken
back while they are the last thing written, and keys, which may not. The writer passes strokes on
in its own time.

* `Edits`: what a sequence of writings makes of a tape.
* `Passes`: whatever the writer passed on, with what it still holds, is the tape.
* `Edits.keys`, `Edits.written`: no key is lost or moved, and without an erasure nothing is.
-/

namespace Tape

inductive Stroke (α κ : Type) where
  | char (c : α)
  | key (k : κ)
  deriving DecidableEq

inductive Writing (α κ : Type) where
  | text (cs : List α)
  | key (k : κ)
  | erase
  deriving DecidableEq

variable {α κ : Type}

def Stroke.key? : Stroke α κ → Option κ
  | .char _ => none
  | .key k => some k

def Writing.key? : Writing α κ → Option κ
  | .key k => some k
  | _ => none

def Writing.strokes : Writing α κ → List (Stroke α κ)
  | .text cs => cs.map .char
  | .key k => [.key k]
  | .erase => []

/-- An erasure takes at least one character off the end. -/
inductive Edits : List (Writing α κ) → List (Stroke α κ) → List (Stroke α κ) → Prop where
  | nil (tape) : Edits [] tape tape
  | text {writings tape tape'} (cs : List α) (rest : Edits writings (tape ++ cs.map .char) tape') :
      Edits (.text cs :: writings) tape tape'
  | key {writings tape tape'} (k : κ) (rest : Edits writings (tape ++ [.key k]) tape') :
      Edits (.key k :: writings) tape tape'
  | erase {writings tape tape'} {cs : List α} (some : cs ≠ []) (rest : Edits writings tape tape') :
      Edits (.erase :: writings) (tape ++ cs.map .char) tape'

namespace Edits

variable {writings writings' : List (Writing α κ)} {tape tape' tape'' : List (Stroke α κ)}

theorem trans (h : Edits writings tape tape') (h' : Edits writings' tape' tape'') :
    Edits (writings ++ writings') tape tape'' := by
  induction h with
  | nil => exact h'
  | text cs _ ih => exact .text cs (ih h')
  | key k _ ih => exact .key k (ih h')
  | erase some _ ih => exact .erase some (ih h')

/-- What was on the tape before stays in front. -/
theorem after (h : Edits writings tape tape') (front : List (Stroke α κ)) :
    Edits writings (front ++ tape) (front ++ tape') := by
  induction h with
  | nil => exact .nil _
  | text cs _ ih => exact .text cs (by rwa [List.append_assoc])
  | key k _ ih => exact .key k (by rwa [List.append_assoc])
  | erase some _ ih =>
    rw [← List.append_assoc]
    exact .erase some ih

theorem filterMap_key?_chars (cs : List α) :
    (cs.map (Stroke.char : α → Stroke α κ)).filterMap Stroke.key? = [] :=
  List.filterMap_eq_nil_iff.mpr fun s hs => by
    obtain ⟨c, -, rfl⟩ := List.mem_map.mp hs
    rfl

/-- The keys of the tape are those that were written, in their order. -/
theorem keys (h : Edits writings tape tape') :
    tape'.filterMap Stroke.key? = tape.filterMap Stroke.key? ++ writings.filterMap Writing.key? := by
  induction h with
  | nil => simp
  | text cs _ ih =>
    rw [ih, List.filterMap_append, filterMap_key?_chars, List.append_nil]
    rfl
  | key k _ ih =>
    rw [ih, List.filterMap_append, List.append_assoc]
    rfl
  | erase _ _ ih =>
    rw [ih, List.filterMap_append, filterMap_key?_chars, List.append_nil]
    rfl

/-- Without an erasure everything stays. -/
theorem written (h : Edits writings tape tape') (hkept : .erase ∉ writings) :
    tape' = tape ++ writings.flatMap Writing.strokes := by
  induction h with
  | nil => simp
  | text cs _ ih =>
    rw [ih fun hmem => hkept (List.mem_cons_of_mem _ hmem), List.append_assoc]
    rfl
  | key k _ ih =>
    rw [ih fun hmem => hkept (List.mem_cons_of_mem _ hmem), List.append_assoc]
    rfl
  | erase => exact absurd List.mem_cons_self hkept

end Edits

/-- A writer that held `held` takes in `writings`, passes `passed` on and holds `held'`. -/
def Passes (writings : List (Writing α κ)) (held : List α) (passed : List (Stroke α κ))
    (held' : List α) : Prop :=
  Edits writings (held.map .char) (passed ++ held'.map .char)

namespace Passes

variable {writings writings' : List (Writing α κ)} {held held' held'' : List α}
  {passed passed' : List (Stroke α κ)}

theorem refl (held : List α) : Passes ([] : List (Writing α κ)) held [] held := Edits.nil _

theorem trans (h : Passes writings held passed held') (h' : Passes writings' held' passed' held'') :
    Passes (writings ++ writings') held (passed ++ passed') held'' := by
  have hrest := h'.after passed
  rw [← List.append_assoc] at hrest
  exact Edits.trans h hrest

/-- Characters are taken in behind those that are held. -/
theorem text {cs passed : List α} (h : passed ++ held' = held ++ cs) :
    Passes [.text cs] held (passed.map (Stroke.char : α → Stroke α κ)) held' := by
  refine Edits.text cs ?_
  rw [← List.map_append, ← List.map_append, h]
  exact .nil _

/-- Nothing is taken in, and some of what is held is passed on. -/
theorem flush {passed : List α} (h : passed ++ held' = held) :
    Passes [] held (passed.map (Stroke.char : α → Stroke α κ)) held' := by
  subst h
  rw [Passes, List.map_append]
  exact .nil _

/-- A key goes past a writer that holds nothing. -/
theorem key (k : κ) : Passes [.key k] ([] : List α) [.key k] [] := Edits.key k (.nil _)

theorem erase {cs : List α} (h : held' ++ cs = held) (some : cs ≠ []) :
    Passes ([.erase] : List (Writing α κ)) held [] held' := by
  subst h
  rw [Passes, List.map_append]
  exact Edits.erase some (.nil _)

end Passes

end Tape
