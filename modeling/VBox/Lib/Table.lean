import Mathlib.Logic.Function.Basic

/-!
# Lib.Table

Tables from keys to values, as partial functions, with the operations of a hash map. `get?` after
each operation is a `simp` lemma, so proofs never unfold them.

* `Inverse`: two tables that undo each other; they do so after a pair was added or removed.
-/

@[ext] structure Table (κ ν : Type) where
  get? : κ → Option ν

namespace Table

variable {κ ν : Type} [DecidableEq κ]

def empty : Table κ ν := ⟨fun _ => none⟩

def insert (t : Table κ ν) (k : κ) (v : ν) : Table κ ν :=
  ⟨Function.update t.get? k (some v)⟩

def remove (t : Table κ ν) (k : κ) : Table κ ν := ⟨Function.update t.get? k none⟩

/-- Keep the entries that pass the test. -/
def retain (t : Table κ ν) (keep : κ → ν → Bool) : Table κ ν :=
  ⟨fun k => (t.get? k).filter (keep k)⟩

/-- Change one value, if the key is there. -/
def modify (t : Table κ ν) (k : κ) (f : ν → ν) : Table κ ν :=
  ⟨Function.update t.get? k ((t.get? k).map f)⟩

/-- Change every value. -/
def mapValues (t : Table κ ν) (f : κ → ν → ν) : Table κ ν := ⟨fun k => (t.get? k).map (f k)⟩

def contains (t : Table κ ν) (k : κ) : Bool := (t.get? k).isSome

variable (t : Table κ ν) (k k' : κ)

omit [DecidableEq κ] in
@[simp] theorem get?_empty : (empty : Table κ ν).get? k = none := rfl

@[simp] theorem get?_insert (v : ν) :
    (t.insert k v).get? k' = if k' = k then some v else t.get? k' :=
  Function.update_apply t.get? k (some v) k'

@[simp] theorem get?_remove :
    (t.remove k).get? k' = if k' = k then none else t.get? k' :=
  Function.update_apply t.get? k none k'

omit [DecidableEq κ] in
@[simp] theorem get?_retain (keep : κ → ν → Bool) :
    (t.retain keep).get? k = (t.get? k).filter (keep k) := rfl

@[simp] theorem get?_modify (f : ν → ν) :
    (t.modify k f).get? k' = if k' = k then (t.get? k).map f else t.get? k' :=
  Function.update_apply t.get? k ((t.get? k).map f) k'

omit [DecidableEq κ] in
@[simp] theorem get?_mapValues (f : κ → ν → ν) :
    (t.mapValues f).get? k = (t.get? k).map (f k) := rfl

omit [DecidableEq κ] in
theorem contains_iff : t.contains k = true ↔ ∃ v, t.get? k = some v :=
  Option.isSome_iff_exists

variable {t k} in
omit [DecidableEq κ] in
theorem contains_of_get? {v : ν} (h : t.get? k = some v) : t.contains k = true :=
  t.contains_iff k |>.2 ⟨v, h⟩

@[simp] theorem contains_insert (v : ν) :
    (t.insert k v).contains k' = (decide (k' = k) || t.contains k') := by
  by_cases h : k' = k <;> simp [contains, h]

@[simp] theorem contains_remove :
    (t.remove k).contains k' = (!decide (k' = k) && t.contains k') := by
  by_cases h : k' = k <;> simp [contains, h]

omit [DecidableEq κ] in
/-- A test of the key alone. -/
@[simp] theorem contains_retain_key (keep : κ → Bool) :
    (t.retain fun k _ => keep k).contains k = (t.contains k && keep k) := by
  cases h : t.get? k <;> cases hk : keep k <;> simp [contains, h, hk]

variable {t k} in
omit [DecidableEq κ] in
theorem contains_of_retain {keep : κ → ν → Bool} (h : (t.retain keep).contains k = true) :
    t.contains k = true := by
  obtain ⟨v, hv⟩ := (contains_iff _ k).1 h
  exact contains_of_get? (Option.filter_eq_some_iff.1 hv).1

variable {t k k'} in
theorem get?_of_remove {v : ν} (h : (t.remove k).get? k' = some v) : t.get? k' = some v := by
  rw [get?_remove] at h
  split at h
  · cases h
  · exact h

variable {t k k'} in
theorem contains_of_remove (h : (t.remove k).contains k' = true) : t.contains k' = true := by
  obtain ⟨v, hv⟩ := (contains_iff _ k').1 h
  exact contains_of_get? (get?_of_remove hv)

@[simp] theorem remove_insert_self (v : ν) : (t.insert k v).remove k = t.remove k :=
  Table.ext (Function.update_idem _ _ _)

@[simp] theorem remove_remove_self : (t.remove k).remove k = t.remove k :=
  Table.ext (Function.update_idem _ _ _)

@[simp] theorem insert_insert_self (v v' : ν) : (t.insert k v).insert k v' = t.insert k v' :=
  Table.ext (Function.update_idem _ _ _)

section Empty

@[simp] theorem remove_empty : (empty : Table κ ν).remove k = empty :=
  Table.ext (Function.update_eq_self k fun _ : κ => (none : Option ν))

omit [DecidableEq κ] in
@[simp] theorem retain_empty (keep : κ → ν → Bool) : (empty : Table κ ν).retain keep = empty := rfl

omit [DecidableEq κ] in
@[simp] theorem mapValues_empty (f : κ → ν → ν) : (empty : Table κ ν).mapValues f = empty := rfl

@[simp] theorem mapValues_insert (f : κ → ν → ν) (v : ν) :
    (t.insert k v).mapValues f = (t.mapValues f).insert k (f k v) := by
  apply Table.ext
  funext k'
  rw [get?_mapValues, get?_insert, get?_insert, get?_mapValues]
  split
  · rename_i hk
    rw [hk, Option.map_some]
  · rfl

end Empty

/-! ## Tables that undo each other -/

/-- Two partial functions that undo each other. -/
def Inverse {α β : Type} (f : α → Option β) (g : β → Option α) : Prop :=
  ∀ a b, f a = some b ↔ g b = some a

section Inverse

variable {α β : Type} [DecidableEq α] [DecidableEq β] {f : α → Option β} {g : β → Option α}
  {a₀ : α} {b₀ : β}

theorem Inverse.insert (h : Inverse f g) (ha : f a₀ = none) (hb : g b₀ = none) :
    Inverse (fun a => if a = a₀ then some b₀ else f a)
      (fun b => if b = b₀ then some a₀ else g b) := by
  intro a b
  dsimp only
  by_cases haa : a = a₀
  · by_cases hbb : b = b₀
    · simp [haa, hbb]
    · rw [if_pos haa, if_neg hbb, ← h, haa, ha]
      simp [Ne.symm hbb]
  · rw [if_neg haa]
    by_cases hbb : b = b₀
    · rw [if_pos hbb, h, hbb, hb]
      simp [Ne.symm haa]
    · rw [if_neg hbb]
      exact h a b

theorem Inverse.remove (h : Inverse f g) (hab : f a₀ = some b₀) :
    Inverse (fun a => if a = a₀ then none else f a) (fun b => if b = b₀ then none else g b) := by
  have hba := (h a₀ b₀).1 hab
  intro a b
  dsimp only
  by_cases haa : a = a₀
  · by_cases hbb : b = b₀
    · simp [haa, hbb]
    · rw [if_pos haa, if_neg hbb, ← h, haa, hab]
      simp [Ne.symm hbb]
  · rw [if_neg haa]
    by_cases hbb : b = b₀
    · rw [if_pos hbb, h, hbb, hba]
      simp [Ne.symm haa]
    · rw [if_neg hbb]
      exact h a b

end Inverse

end Table
