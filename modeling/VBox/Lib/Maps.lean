import Mathlib.Data.List.AList

/-!
# Lib.Maps

Hash maps as Mathlib's `AList`: the entries, with distinct keys, in the order in which the map would
be walked. That order is not specified, so what a program may rely on is `lookup`; a `Walk` is any
order a walk may take. Added here are the operations `AList` lacks:

* `retain`: keep the entries that pass a test;
* `mapValues`: change every value;
* `collect`: insert the elements of a list one after another.
-/

namespace AList

variable {κ ν μ : Type} [DecidableEq κ] {m : AList fun _ : κ => ν} {k : κ} {v : ν}

theorem lookup_eq_some_iff : m.lookup k = some v ↔ ⟨k, v⟩ ∈ m.entries :=
  mem_lookup_iff

theorem lookup_insert_eq (k' : κ) :
    (m.insert k v).lookup k' = if k' = k then some v else m.lookup k' := by
  split
  · rename_i h
    subst h
    exact lookup_insert m
  · rename_i h
    exact lookup_insert_ne h

theorem lookup_erase_eq (k' : κ) :
    (m.erase k).lookup k' = if k' = k then none else m.lookup k' := by
  split
  · rename_i h
    subst h
    exact lookup_erase k' m
  · rename_i h
    exact lookup_erase_ne h

/-- Keep the entries that pass the test. -/
def retain (m : AList fun _ : κ => ν) (keep : κ → ν → Bool) : AList fun _ : κ => ν where
  entries := m.entries.filter fun e => keep e.1 e.2
  nodupKeys := m.nodupKeys.sublist List.filter_sublist

theorem lookup_retain_eq_some {keep : κ → ν → Bool} :
    (m.retain keep).lookup k = some v ↔ m.lookup k = some v ∧ keep k v = true := by
  rw [lookup_eq_some_iff, lookup_eq_some_iff, retain, List.mem_filter]

theorem lookup_retain (keep : κ → ν → Bool) :
    (m.retain keep).lookup k = (m.lookup k).filter (keep k) := by
  apply Option.ext
  intro v
  rw [lookup_retain_eq_some, Option.filter_eq_some_iff]

/-- Change every value. -/
def mapValues (m : AList fun _ : κ => ν) (f : κ → ν → μ) : AList fun _ : κ => μ where
  entries := m.entries.map fun e => ⟨e.1, f e.1 e.2⟩
  nodupKeys := List.NodupKeys.map₂ f m.entries m.nodupKeys

theorem lookup_mapValues (f : κ → ν → μ) : (m.mapValues f).lookup k = (m.lookup k).map (f k) :=
  List.dlookup_map₂ k

/-- Insert the elements of a list in turn. -/
def collect {α : Type} (key : α → κ) (value : α → ν) (as : List α) : AList fun _ : κ => ν :=
  as.foldl (fun m a => m.insert (key a) (value a)) ∅

section Collect

variable {α : Type} {key : α → κ} {value : α → ν}

theorem lookup_foldl_insert (as : List α) (hnodup : (as.map key).Nodup)
    (m : AList fun _ : κ => ν) :
    (as.foldl (fun m a => m.insert (key a) (value a)) m).lookup k = some v ↔
      (∃ a ∈ as, key a = k ∧ value a = v) ∨ (k ∉ as.map key ∧ m.lookup k = some v) := by
  induction as generalizing m with
  | nil => simp
  | cons a as ih =>
    obtain ⟨hnotin, hnodup⟩ := List.nodup_cons.1 hnodup
    rw [List.foldl_cons, ih hnodup, lookup_insert_eq]
    by_cases hk : k = key a
    · subst hk
      simp only [if_true, Option.some.injEq, hnotin, not_false_eq_true, true_and, List.mem_cons,
        List.map_cons, not_true_eq_false, false_and, or_false]
      constructor
      · rintro (⟨b, hb, hkey, hvalue⟩ | hvalue)
        · exact ⟨b, .inr hb, hkey, hvalue⟩
        · exact ⟨a, .inl rfl, rfl, hvalue⟩
      · rintro ⟨b, rfl | hb, hkey, hvalue⟩
        · exact .inr hvalue
        · exact .inl ⟨b, hb, hkey, hvalue⟩
    · simp [hk, Ne.symm hk, List.mem_cons]

/-- Of a list with distinct keys every element is found again. -/
theorem lookup_collect {as : List α} (hnodup : (as.map key).Nodup) :
    (collect key value as).lookup k = some v ↔ ∃ a ∈ as, key a = k ∧ value a = v := by
  rw [collect, lookup_foldl_insert as hnodup]
  simp

end Collect

/-- Any order in which a map may be walked. -/
structure Walk (κ ν : Type) where
  order : (AList fun _ : κ => ν) → AList fun _ : κ => ν
  perm : ∀ m, (order m).entries.Perm m.entries

/-- The order in which the entries are kept. -/
def Walk.kept (κ ν : Type) : Walk κ ν := ⟨id, fun _ => .refl _⟩

theorem Walk.lookup_order (w : Walk κ ν) (m : AList fun _ : κ => ν) :
    (w.order m).lookup k = m.lookup k :=
  perm_lookup (w.perm m)

end AList
