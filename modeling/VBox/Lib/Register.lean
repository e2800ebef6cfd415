import Mathlib.Data.List.Induction
import Mathlib.Order.Lattice

/-!
# Lib.Register

A register that takes entries in any order and keeps the latest one, as told by a key.

* `holds_foldl`: after a list of writes the register holds a latest entry of the list.
* `foldl_perm`: when different entries have different keys, the order of the writes does not matter.
-/

namespace Register

variable {α κ : Type} [LinearOrder κ] (key : α → κ)

/-- Of two entries with one key the first stays. -/
def write : Option α → α → Option α
  | none, a => some a
  | some b, a => if key a ≤ key b then some b else some a

/-- `a` is one of the entries, and none of them comes after it. -/
structure IsLatest (as : List α) (a : α) : Prop where
  mem : a ∈ as
  le : ∀ b ∈ as, key b ≤ key a

/-- What a register has to hold after the entries `as`. -/
def Holds (as : List α) : Option α → Prop
  | none => as = []
  | some a => IsLatest key as a

variable {key} {as bs : List α} {a b : α}

theorem IsLatest.perm (h : IsLatest key as a) (hperm : as.Perm bs) : IsLatest key bs a :=
  ⟨hperm.mem_iff.1 h.mem, fun b hb => h.le b (hperm.mem_iff.2 hb)⟩

theorem IsLatest.unique (ha : IsLatest key as a) (hb : IsLatest key as b)
    (hkey : ∀ x ∈ as, ∀ y ∈ as, key x = key y → x = y) : a = b :=
  hkey a ha.mem b hb.mem (le_antisymm (hb.le a ha.mem) (ha.le b hb.mem))

theorem Holds.write {r : Option α} (h : Holds key as r) (a : α) :
    Holds key (as ++ [a]) (write key r a) := by
  cases r with
  | none =>
    cases h
    exact ⟨List.mem_singleton.2 rfl, fun b hb => by rw [List.mem_singleton.1 hb]⟩
  | some c =>
    by_cases hle : key a ≤ key c
    · rw [Register.write, if_pos hle]
      refine ⟨List.mem_append_left _ h.mem, fun b hb => ?_⟩
      obtain hb | hb := List.mem_append.1 hb
      · exact h.le b hb
      · rwa [List.mem_singleton.1 hb]
    · rw [Register.write, if_neg hle]
      refine ⟨List.mem_append_right _ (List.mem_singleton.2 rfl), fun b hb => ?_⟩
      obtain hb | hb := List.mem_append.1 hb
      · exact (h.le b hb).trans (le_of_not_ge hle)
      · rw [List.mem_singleton.1 hb]

variable (key) in
theorem holds_foldl (as : List α) : Holds key as (as.foldl (write key) none) := by
  induction as using List.reverseRecOn with
  | nil => rfl
  | append_singleton as a ih =>
    rw [List.foldl_append]
    exact ih.write a

theorem foldl_eq_some (h : IsLatest key as a)
    (hkey : ∀ x ∈ as, ∀ y ∈ as, key x = key y → x = y) :
    as.foldl (write key) none = some a := by
  have hholds := holds_foldl key as
  cases hr : as.foldl (write key) none with
  | none =>
    rw [hr] at hholds
    have hnil : as = [] := hholds
    exact absurd h.mem (by simp [hnil])
  | some b =>
    rw [hr] at hholds
    rw [h.unique hholds hkey]

theorem foldl_perm (hperm : as.Perm bs)
    (hkey : ∀ x ∈ as, ∀ y ∈ as, key x = key y → x = y) :
    as.foldl (write key) none = bs.foldl (write key) none := by
  have hholds := holds_foldl key bs
  cases hr : bs.foldl (write key) none with
  | none =>
    rw [hr] at hholds
    have hnil : bs = [] := hholds
    rw [hnil, List.perm_nil] at hperm
    rw [hperm, List.foldl_nil]
  | some b =>
    rw [hr] at hholds
    exact foldl_eq_some (IsLatest.perm hholds hperm.symm) hkey

end Register
