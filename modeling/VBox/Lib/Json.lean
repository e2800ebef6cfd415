import Mathlib.Data.List.Nodup
import Mathlib.Data.List.Induction

/-!
# Lib.Json

JSON values as a parser hands them on, and how a record type is read from them. A name may stand
twice in an object; what counts for a reader is the last field of a name. A number is the text that
is printed for it.

* `field?`, `insert`, `remove`: the fields of an object as a map.
* `readStruct`: the fields of a record type, from an object or from an array in order.
* `readField_eq_some`: a field that is read and printed again has the value that it had, or its
  default.
-/

inductive Json where
  | null
  | bool (b : Bool)
  | num (text : List Char)
  | str (s : List Char)
  | arr (items : List Json)
  | obj (fields : List (List Char × Json))

namespace Json

abbrev Name := List Char

abbrev Fields := List (Name × Json)

def asStr : Json → Option (List Char)
  | str s => some s
  | _ => none

def asBool : Json → Option Bool
  | bool b => some b
  | _ => none

def asArray : Json → Option (List Json)
  | arr items => some items
  | _ => none

def asObject : Json → Option Fields
  | obj fields => some fields
  | _ => none

theorem eq_str_of_asStr {v : Json} {s : List Char} (h : v.asStr = some s) : v = str s := by
  cases v <;> cases h
  rfl

theorem eq_bool_of_asBool {v : Json} {b : Bool} (h : v.asBool = some b) : v = bool b := by
  cases v <;> cases h
  rfl

/-! ## Fields as a map -/

/-- All values of a name. -/
def valuesOf (fields : Fields) (name : Name) : List Json :=
  (fields.filter (·.1 = name)).map Prod.snd

/-- The last field of the name. -/
def field? (fields : Fields) (name : Name) : Option Json := fields.reverse.lookup name

def insert (fields : Fields) (name : Name) (v : Json) : Fields :=
  fields.filter (·.1 ≠ name) ++ [(name, v)]

def remove (fields : Fields) (name : Name) : Fields := fields.filter (·.1 ≠ name)

/-- Indexing: a field of an object. -/
def get? (v : Json) (name : Name) : Option Json := v.asObject.bind (field? · name)

section Fields

variable {fields : Fields} {name k : Name} {v : Json}

theorem field?_concat :
    field? (fields ++ [(name, v)]) k = if k = name then some v else field? fields k := by
  rw [field?, List.reverse_append, List.reverse_singleton, List.singleton_append, List.lookup_cons]
  split
  · rename_i h
    rw [if_pos (beq_iff_eq.1 h)]
  · rename_i h
    rw [if_neg (beq_eq_false_iff_ne.1 h), field?]

theorem field?_eq_none_iff : field? fields k = none ↔ k ∉ fields.map Prod.fst := by
  rw [field?, List.lookup_eq_none_iff]
  simp only [List.mem_reverse, bne_iff_ne, List.mem_map, not_exists, not_and]
  constructor
  · intro h p hp heq
    exact h p hp heq.symm
  · intro h p hp heq
    exact h p hp heq.symm

theorem mem_of_field? (h : field? fields k = some v) : k ∈ fields.map Prod.fst := by
  by_contra hnot
  rw [field?_eq_none_iff.2 hnot] at h
  cases h

theorem mem_remove : (k, v) ∈ remove fields name ↔ (k, v) ∈ fields ∧ k ≠ name := by
  rw [remove, List.mem_filter, decide_eq_true_iff]

theorem field?_remove :
    field? (remove fields name) k = if k = name then none else field? fields k := by
  induction fields using List.reverseRecOn with
  | nil => split <;> rfl
  | append_singleton fields f ih =>
    obtain ⟨n, v⟩ := f
    rw [remove, List.filter_append, ← remove, field?_concat]
    by_cases hn : n = name
    · subst hn
      have hdropped : [(n, v)].filter (fun f => decide (f.1 ≠ n)) = [] := by simp
      rw [hdropped, List.append_nil, ih]
      split
      · rfl
      · rfl
    · have hkept : [(n, v)].filter (fun f => decide (f.1 ≠ name)) = [(n, v)] := by simp [hn]
      rw [hkept, field?_concat, ih]
      split
      · rename_i hk
        rw [if_neg (hk ▸ hn)]
      · rfl

theorem field?_insert :
    field? (insert fields name v) k = if k = name then some v else field? fields k := by
  rw [insert, field?_concat, ← remove, field?_remove]
  split
  · rfl
  · rfl

theorem field?_eq_getLast? : field? fields k = (valuesOf fields k).getLast? := by
  induction fields using List.reverseRecOn with
  | nil => rfl
  | append_singleton fields f ih =>
    obtain ⟨n, v⟩ := f
    rw [field?_concat, valuesOf, List.filter_append, List.map_append, ← valuesOf]
    by_cases hk : k = n
    · subst hk
      simp
    · have hdropped : [(n, v)].filter (fun f => decide (f.1 = k)) = [] := by simp [Ne.symm hk]
      rw [if_neg hk, ih, hdropped, List.map_nil, List.append_nil]

end Fields

/-! ## Record types -/

/-- The fields that a record type with these names finds in a value: those of an object, or the
elements of an array in order. -/
def structFields (names : List Name) : Json → Fields
  | obj fields => fields
  | arr items => names.zip items
  | _ => []

/-- Reading fails where a field of the type stands twice and where an array is too long. Fields that
the type does not have are skipped. -/
def readStruct (names : List Name) : Json → Option Fields
  | obj fields =>
    if ((fields.map Prod.fst).filter (names.contains ·)).Nodup then some fields else none
  | arr items => if items.length ≤ names.length then some (names.zip items) else none
  | _ => none

/-- A field of a record type; without a default it must not be missing. -/
def readField {α : Type} (read : Json → Option α) (missing : Option α) (fields : Fields)
    (name : Name) : Option α :=
  match field? fields name with
  | some v => read v
  | none => missing

section Struct

variable {names : List Name} {fields : Fields} {name : Name} {v : Json}

theorem structFields_of_readStruct (h : v.readStruct names = some fields) :
    v.structFields names = fields := by
  cases v with
  | obj fields' =>
    rw [readStruct, Option.ite_none_right_eq_some] at h
    exact Option.some.inj h.2
  | arr items =>
    rw [readStruct, Option.ite_none_right_eq_some] at h
    exact Option.some.inj h.2
  | null => cases h
  | bool b => cases h
  | num text => cases h
  | str s => cases h

theorem map_fst_zip_sublist (names : List Name) (items : List Json) :
    List.Sublist ((names.zip items).map Prod.fst) names := by
  induction names generalizing items with
  | nil => exact List.Sublist.refl []
  | cons name names ih =>
    cases items with
    | nil => exact List.nil_sublist _
    | cons v items => exact (ih items).cons_cons name

/-- Of a field of the type there is one value at most. -/
theorem valuesOf_of_readStruct (h : v.readStruct names = some fields) (hnames : names.Nodup)
    (hname : name ∈ names) : valuesOf fields name = (field? fields name).toList := by
  have hnodup : ((fields.map Prod.fst).filter (names.contains ·)).Nodup := by
    cases v with
    | obj fields' =>
      rw [readStruct, Option.ite_none_right_eq_some] at h
      rw [← Option.some.inj h.2]
      exact h.1
    | arr items =>
      rw [readStruct, Option.ite_none_right_eq_some] at h
      rw [← Option.some.inj h.2]
      exact (hnames.sublist (map_fst_zip_sublist names items)).filter _
    | null => cases h
    | bool b => cases h
    | num text => cases h
    | str s => cases h
  have hone : (valuesOf fields name).length ≤ 1 := by
    have hcount := List.nodup_iff_count_le_one.1 hnodup name
    rw [List.count_filter (List.contains_iff_mem.2 hname)] at hcount
    rw [valuesOf, List.length_map, ← List.countP_eq_length_filter]
    rw [List.count, List.countP_map] at hcount
    have heq : (fun f : Name × Json => decide (f.1 = name)) = (· == name) ∘ Prod.fst := by
      funext f
      rw [Function.comp_apply, Bool.beq_eq_decide_eq]
    rw [heq]
    exact hcount
  rw [field?_eq_getLast?]
  match hvalues : valuesOf fields name with
  | [] => rfl
  | [v] => rfl
  | v :: v' :: rest =>
    rw [hvalues] at hone
    simp at hone

theorem readField_eq_some {α : Type} {read : Json → Option α} {print : α → Json}
    (hprint : ∀ v a, read v = some a → v = print a) {missing : Option α} {a : α}
    (h : readField read missing fields name = some a) :
    (field? fields name).or (missing.map print) = some (print a) := by
  unfold readField at h
  split at h
  · rename_i v hv
    rw [hv, Option.some_or, hprint v a h]
  · rename_i hnone
    rw [hnone, Option.none_or, h, Option.map_some]

end Struct

end Json
