import Mathlib.Data.List.Basic
import Mathlib.Data.Finset.Range

/-!
# Lib.Slices

Cutting a list into pieces of a given size, and putting numbered pieces back together.

* `chunks n l`: the pieces of `l`, `n` elements each but for the last.
* `Cells`: a row of cells, each empty or holding a piece. `joined` is the concatenation when no
  cell is empty, `stored` the number of elements in the cells so far.
* `Cells.of ps seen`: the row that holds the pieces of `ps` with a number in `seen`. Filling a cell
  adds its number (`set_of`), and `joined` answers once every number is there (`joined_of`).
-/

namespace Slices

variable {α : Type}

/-- Division rounding up. -/
def divCeil (a b : Nat) : Nat := (a + b - 1) / b

theorem divCeil_le_iff {a b k : Nat} (hb : 0 < b) : divCeil a b ≤ k ↔ a ≤ k * b := by
  rw [divCeil, Nat.div_le_iff_le_mul_add_pred hb]
  rw [Nat.mul_comm b k]; omega

theorem divCeil_pos {a b : Nat} (hb : 0 < b) (ha : 0 < a) : 0 < divCeil a b := by
  rw [Nat.pos_iff_ne_zero]
  intro h
  have := (divCeil_le_iff (k := 0) hb).1 (Nat.le_of_eq h)
  omega

/-- `l` cut into pieces of `n` elements, the last one possibly shorter. -/
def chunks (n : Nat) (l : List α) : List (List α) :=
  (List.range (divCeil l.length n)).map fun i => (l.drop (i * n)).take n

theorem chunks_length (n : Nat) (l : List α) : (chunks n l).length = divCeil l.length n := by
  simp [chunks]

theorem flatten_map_range (n : Nat) (l : List α) (k : Nat) :
    ((List.range k).map fun i => (l.drop (i * n)).take n).flatten = l.take (k * n) := by
  induction k with
  | zero => simp
  | succ k ih =>
    rw [List.range_succ, List.map_append, List.flatten_append, ih, Nat.succ_mul, List.take_add]
    simp

theorem chunks_flatten {n : Nat} (hn : 0 < n) (l : List α) : (chunks n l).flatten = l := by
  rw [chunks, flatten_map_range]
  exact List.take_of_length_le ((divCeil_le_iff hn).1 (Nat.le_refl _))

theorem length_le_of_mem_chunks {n : Nat} {l p : List α} (h : p ∈ chunks n l) : p.length ≤ n := by
  obtain ⟨i, -, rfl⟩ := List.mem_map.1 h
  exact List.length_take_le _ _

theorem ne_nil_of_mem_chunks {n : Nat} (hn : 0 < n) {l p : List α} (h : p ∈ chunks n l) :
    p ≠ [] := by
  obtain ⟨i, hi, rfl⟩ := List.mem_map.1 h
  rw [List.mem_range, ← Nat.not_le, divCeil_le_iff hn] at hi
  rw [← List.length_pos_iff, List.length_take, List.length_drop]
  omega

/-! ## Cells -/

abbrev Cells (α : Type) := List (Option (List α))

namespace Cells

/-- The concatenation of the cells, if none is empty. -/
def joined : Cells α → Option (List α)
  | [] => some []
  | none :: _ => none
  | some p :: cs => (joined cs).map (p ++ ·)

/-- How many elements the cells hold. -/
def stored : Cells α → Nat
  | [] => 0
  | c :: cs => (c.map List.length).getD 0 + stored cs

theorem joined_eq_some_iff {cs : Cells α} {l : List α} :
    joined cs = some l ↔ ∃ ps : List (List α), cs = ps.map some ∧ l = ps.flatten := by
  induction cs generalizing l with
  | nil =>
    constructor
    · intro h; cases h; exact ⟨[], rfl, rfl⟩
    · rintro ⟨ps, hps, rfl⟩
      obtain rfl : ps = [] := by simpa using hps.symm
      rfl
  | cons c cs ih =>
    cases c with
    | none =>
      constructor
      · intro h; cases h
      · rintro ⟨ps, hps, -⟩
        cases ps <;> simp at hps
    | some p =>
      constructor
      · intro h
        rw [joined, Option.map_eq_some_iff] at h
        obtain ⟨l', hl', rfl⟩ := h
        obtain ⟨ps, rfl, rfl⟩ := ih.1 hl'
        exact ⟨p :: ps, rfl, rfl⟩
      · rintro ⟨ps, hps, rfl⟩
        cases ps with
        | nil => cases hps
        | cons q ps =>
          obtain ⟨rfl, hcs⟩ : p = q ∧ cs = ps.map some := by simpa using hps
          rw [joined, ih.2 ⟨ps, hcs, rfl⟩]
          rfl

theorem isSome_joined_iff (cs : Cells α) : (joined cs).isSome ↔ ¬ cs.any Option.isNone := by
  induction cs with
  | nil => simp [joined]
  | cons c cs ih => cases c <;> simp [joined, ih]

theorem stored_replicate_none (n : Nat) : stored (List.replicate n (none : Option (List α))) = 0 := by
  induction n with
  | zero => rfl
  | succ n ih =>
    rw [List.replicate_succ, stored, ih]
    rfl

/-- Filling an empty cell adds what is put in. -/
theorem stored_set {cs : Cells α} {i : Nat} (h : cs[i]? = some none) (p : List α) :
    stored (cs.set i (some p)) = stored cs + p.length := by
  induction cs generalizing i with
  | nil => simp at h
  | cons c cs ih =>
    cases i with
    | zero =>
      obtain rfl : c = none := by simpa using h
      simp [stored, Nat.add_comm]
    | succ i =>
      have := ih (by simpa using h)
      rw [List.set_cons_succ, stored, stored, this]
      omega

/-- A row whose full cells agree with `ps` holds no more than `ps`. -/
theorem stored_le {cs : Cells α} {ps : List (List α)} (hlen : cs.length = ps.length)
    (h : ∀ (i : Nat) p, cs[i]? = some (some p) → ps[i]? = some p) : stored cs ≤ ps.flatten.length := by
  induction cs generalizing ps with
  | nil => simp [stored]
  | cons c cs ih =>
    cases ps with
    | nil => cases hlen
    | cons q ps =>
      have htail : stored cs ≤ ps.flatten.length :=
        ih (by simpa using hlen) fun i p hi => by simpa using h (i + 1) p (by simpa using hi)
      have hhead : (c.map List.length).getD 0 ≤ q.length := by
        cases c with
        | none => simp
        | some p =>
          have : q = p := by simpa using h 0 p rfl
          simp [this]
      rw [stored, List.flatten_cons, List.length_append]
      omega

/-! ### The row filled so far -/

/-- The pieces of `ps` whose number is in `seen`, in their cells. -/
def of (ps : List (List α)) (seen : Finset Nat) : Cells α :=
  ps.mapIdx fun i p => if i ∈ seen then some p else none

variable {ps : List (List α)} {seen : Finset Nat}

@[simp] theorem of_length : (of ps seen).length = ps.length := by simp [of]

theorem of_getElem? (i : Nat) :
    (of ps seen)[i]? = ps[i]?.map fun p => if i ∈ seen then some p else none := by
  simp [of]

theorem of_empty (ps : List (List α)) : of ps ∅ = List.replicate ps.length none := by
  apply List.ext_getElem?
  intro i
  rw [of_getElem?, List.getElem?_replicate]
  by_cases hi : i < ps.length <;> simp [hi]

theorem set_of {i : Nat} {p : List α} (hp : ps[i]? = some p) :
    (of ps seen).set i (some p) = of ps (insert i seen) := by
  obtain ⟨hi, -⟩ := List.getElem?_eq_some_iff.1 hp
  apply List.ext_getElem?
  intro j
  rw [List.getElem?_set, of_length]
  by_cases hij : i = j
  · subst hij
    rw [if_pos rfl, if_pos hi, of_getElem?, hp]
    simp
  · have : j ≠ i := fun h => hij h.symm
    simp [hij, of_getElem?, this]

theorem of_getD {i : Nat} (hi : i < ps.length) :
    ((of ps seen).getD i none).isSome = decide (i ∈ seen) := by
  rw [List.getD_eq_getElem?_getD, of_getElem?, List.getElem?_eq_getElem hi]
  by_cases h : i ∈ seen <;> simp [h]

theorem stored_of_le : stored (of ps seen) ≤ ps.flatten.length := by
  refine stored_le of_length fun i p h => ?_
  rw [of_getElem?, Option.map_eq_some_iff] at h
  obtain ⟨q, hq, h⟩ := h
  split at h
  · cases h; exact hq
  · cases h

theorem joined_of :
    joined (of ps seen) = if Finset.range ps.length ⊆ seen then some ps.flatten else none := by
  split
  · rename_i hall
    refine joined_eq_some_iff.2 ⟨ps, ?_, rfl⟩
    apply List.ext_getElem?
    intro i
    rw [of_getElem?, List.getElem?_map]
    by_cases hi : i < ps.length
    · have : i ∈ seen := hall (Finset.mem_range.2 hi)
      simp [this]
    · simp [List.getElem?_eq_none (Nat.le_of_not_lt hi)]
  · rename_i hmiss
    obtain ⟨i, hi, hseen⟩ := Finset.not_subset.1 hmiss
    have hcell : (of ps seen)[i]? = some none := by
      rw [of_getElem?, List.getElem?_eq_getElem (Finset.mem_range.1 hi)]
      simp [hseen]
    have hany : (of ps seen).any Option.isNone :=
      List.any_eq_true.2 ⟨none, List.mem_of_getElem? hcell, rfl⟩
    rw [← Option.not_isSome_iff_eq_none, isSome_joined_iff]
    simp [hany]

end Cells
end Slices
