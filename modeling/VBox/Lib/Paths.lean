import Mathlib.Data.List.Induction

/-!
# Lib.Paths

Unix paths as texts, their normal forms, and how joining works on normal forms.

* `join`: `Path::join`. An absolute path replaces what it is joined to.
* `Normal`: a path without `.` and with `..` in front only; at the root there is no `..` at all.
* `normalize`: lexical normalisation, one component after another.
* `normalize_join`: the normal form of joined paths, from the normal forms of both.
* `Normal.below_resolve_iff`: when a resolved path is strictly below what it was resolved from.
-/

namespace Paths

abbrev Text := List Char

def isAbsolute (path : Text) : Bool := path.head? = some '/'

/-- `Path::join`. -/
def join (path rest : Text) : Text :=
  if isAbsolute rest then rest
  else if path = [] ∨ path.getLast? = some '/' then path ++ rest
  else path ++ '/' :: rest

/-! ## Normal forms -/

/-- `ups` times `..`, and then the names from there on. -/
structure Normal where
  absolute : Bool
  ups : Nat
  names : List Text
  rooted : absolute = true → ups = 0

namespace Normal

@[ext] theorem ext' {p q : Normal} (habsolute : p.absolute = q.absolute) (hups : p.ups = q.ups)
    (hnames : p.names = q.names) : p = q := by
  cases p
  cases q
  cases habsolute
  cases hups
  cases hnames
  rfl

/-- The root, or the current directory. -/
def start (absolute : Bool) : Normal := ⟨absolute, 0, [], fun _ => rfl⟩

/-- `p/..` -/
def parent (p : Normal) : Normal :=
  if p.names ≠ [] then ⟨p.absolute, p.ups, p.names.dropLast, p.rooted⟩
  else if h : p.absolute then p
  else ⟨p.absolute, p.ups + 1, [], fun habsolute => absurd habsolute h⟩

def push (p : Normal) (component : Text) : Normal :=
  if component = [] ∨ component = ['.'] then p
  else if component = ['.', '.'] then p.parent
  else ⟨p.absolute, p.ups, p.names ++ [component], p.rooted⟩

/-- `q` from `p` on. -/
def resolve (p q : Normal) : Normal :=
  if q.absolute then q
  else
    ⟨p.absolute, if p.absolute then 0 else p.ups + (q.ups - p.names.length),
      p.names.take (p.names.length - q.ups) ++ q.names, by simp +contextual⟩

/-- `q` is a strict descendant of `p`. -/
def Below (q p : Normal) : Prop :=
  q.absolute = p.absolute ∧ q.ups = p.ups ∧ p.names <+: q.names ∧ p.names ≠ q.names

instance (q p : Normal) : Decidable (q.Below p) :=
  inferInstanceAs (Decidable (_ ∧ _ ∧ _ ∧ _))

end Normal

def normalize (path : Text) : Normal :=
  (path.splitOn '/').foldl Normal.push (Normal.start (isAbsolute path))

/-! ## Joining normal forms -/

namespace Normal

variable {p q : Normal} {c : Text}

theorem resolve_of_absolute (h : q.absolute = true) : p.resolve q = q := if_pos h

theorem resolve_of_relative (h : q.absolute = false) :
    (p.resolve q).absolute = p.absolute ∧
      (p.resolve q).ups = (if p.absolute then 0 else p.ups + (q.ups - p.names.length)) ∧
      (p.resolve q).names = p.names.take (p.names.length - q.ups) ++ q.names := by
  rw [resolve, if_neg (by simp [h])]
  exact ⟨rfl, rfl, rfl⟩

@[simp] theorem push_nil : p.push [] = p := if_pos (.inl rfl)

theorem absolute_push : (p.push c).absolute = p.absolute := by
  unfold push parent
  split
  · rfl
  · split
    · split
      · rfl
      · split <;> rfl
    · rfl

theorem absolute_foldl_push (components : List Text) :
    (components.foldl push p).absolute = p.absolute := by
  induction components generalizing p with
  | nil => rfl
  | cons c components ih => rw [List.foldl_cons, ih, absolute_push]

theorem resolve_start : p.resolve (start false) = p := by
  obtain ⟨habsolute, hups, hnames⟩ := resolve_of_relative (p := p) (q := start false) rfl
  apply ext' habsolute
  · rw [hups]
    split
    · rename_i h
      exact (p.rooted h).symm
    · simp [start]
  · rw [hnames]
    simp [start]

theorem dropLast_take_sub {α : Type} (l : List α) (n : Nat) :
    (l.take (l.length - n)).dropLast = l.take (l.length - (n + 1)) := by
  rw [List.dropLast_eq_take, List.take_take, List.length_take]
  congr 1
  omega

/-- There is nothing of `q` left to take away: one more name of `p` goes, or `p` is left upwards. -/
theorem parent_resolve_of_nil (h : q.absolute = false) (hq : q.names = []) :
    (p.resolve q).parent = p.resolve q.parent := by
  obtain ⟨habsolute, hups, hnames⟩ := resolve_of_relative (p := p) h
  have hparent : q.parent.absolute = false ∧ q.parent.ups = q.ups + 1 ∧ q.parent.names = [] := by
    rw [parent, if_neg (by simp [hq]), dif_neg (by simp [h])]
    exact ⟨h, rfl, rfl⟩
  obtain ⟨hpa, hpu, hpn⟩ := hparent
  obtain ⟨habsolute', hups', hnames'⟩ := resolve_of_relative (p := p) hpa
  rw [hq, List.append_nil] at hnames
  rw [hpu] at hups'
  rw [hpn, List.append_nil, hpu] at hnames'
  by_cases hlt : q.ups < p.names.length
  · have hne : (p.resolve q).names ≠ [] := by
      rw [hnames]
      apply List.ne_nil_of_length_pos
      rw [List.length_take]
      omega
    rw [parent, if_pos hne]
    apply ext'
    · exact habsolute.trans habsolute'.symm
    · rw [hups, hups', Nat.sub_eq_zero_of_le (Nat.le_of_lt hlt), Nat.sub_eq_zero_of_le hlt]
    · rw [hnames, hnames', dropLast_take_sub]
  · rw [show p.names.length - q.ups = 0 by omega, List.take_zero] at hnames
    rw [show p.names.length - (q.ups + 1) = 0 by omega, List.take_zero] at hnames'
    rw [parent, if_neg (by simp [hnames])]
    by_cases hp : p.absolute = true
    · rw [dif_pos (habsolute.trans hp)]
      rw [if_pos hp] at hups hups'
      exact ext' (habsolute.trans habsolute'.symm) (hups.trans hups'.symm)
        (hnames.trans hnames'.symm)
    · rw [dif_neg (by rwa [habsolute])]
      rw [if_neg hp] at hups hups'
      refine ext' (habsolute.trans habsolute'.symm) ?_ hnames'.symm
      change (p.resolve q).ups + 1 = (p.resolve q.parent).ups
      omega

theorem parent_resolve_of_ne_nil (h : q.absolute = false) (hq : q.names ≠ []) :
    (p.resolve q).parent = p.resolve q.parent := by
  obtain ⟨habsolute, hups, hnames⟩ := resolve_of_relative (p := p) h
  have hparent : q.parent = ⟨q.absolute, q.ups, q.names.dropLast, q.rooted⟩ := if_pos hq
  obtain ⟨habsolute', hups', hnames'⟩ :=
    resolve_of_relative (p := p) (q := q.parent) (by rw [hparent]; exact h)
  rw [hparent] at hups' hnames'
  have hne : (p.resolve q).names ≠ [] := by
    rw [hnames]
    exact List.append_ne_nil_of_right_ne_nil _ hq
  rw [parent, if_pos hne]
  apply ext'
  · exact habsolute.trans habsolute'.symm
  · rw [hparent]
    exact hups.trans hups'.symm
  · rw [hparent]
    calc (p.resolve q).names.dropLast
        = p.names.take (p.names.length - q.ups) ++ q.names.dropLast := by
          rw [hnames, List.dropLast_append_of_ne_nil hq]
      _ = _ := hnames'.symm

theorem parent_resolve (h : q.absolute = false) : (p.resolve q).parent = p.resolve q.parent := by
  by_cases hq : q.names = []
  · exact parent_resolve_of_nil h hq
  · exact parent_resolve_of_ne_nil h hq

theorem push_resolve (h : q.absolute = false) (c : Text) :
    (p.resolve q).push c = p.resolve (q.push c) := by
  unfold push
  split
  · rfl
  · split
    · exact parent_resolve h
    · simp only [resolve, h]
      simp

theorem foldl_push_resolve (h : q.absolute = false) (components : List Text) :
    components.foldl push (p.resolve q) = p.resolve (components.foldl push q) := by
  induction components generalizing q with
  | nil => rfl
  | cons c components ih =>
    rw [List.foldl_cons, List.foldl_cons, push_resolve h, ih (absolute_push.trans h)]

/-- From `p` on, `q` leads strictly below `p`: the names that are climbed over come again, and
more. -/
def LeadsInside (q p : Normal) : Prop :=
  if q.absolute then q.Below p
  else (p.absolute ∨ q.ups ≤ p.names.length) ∧
    p.names.drop (p.names.length - q.ups) <+: q.names ∧
    p.names.drop (p.names.length - q.ups) ≠ q.names

theorem below_resolve_iff : (p.resolve q).Below p ↔ q.LeadsInside p := by
  rw [LeadsInside]
  cases h : q.absolute with
  | true => rw [resolve_of_absolute h, if_pos rfl]
  | false =>
    obtain ⟨habsolute, hups, hnames⟩ := resolve_of_relative (p := p) h
    have hclimb : (p.resolve q).ups = p.ups ↔ p.absolute = true ∨ q.ups ≤ p.names.length := by
      rw [hups]
      by_cases hp : p.absolute = true
      · simp [hp, p.rooted hp]
      · rw [if_neg hp]
        simp only [hp, Bool.false_eq_true, false_or]
        omega
    have hsplit := List.take_append_drop (p.names.length - q.ups) p.names
    simp only [Below, habsolute, hclimb, hnames, true_and, Bool.false_eq_true, if_false]
    generalize p.names.take (p.names.length - q.ups) = kept at hsplit ⊢
    generalize p.names.drop (p.names.length - q.ups) = dropped at hsplit ⊢
    rw [← hsplit, List.prefix_append_right_inj, ne_eq, List.append_cancel_left_eq]

theorem not_leadsInside_of_names_eq_nil (h : q.absolute = false) (hnames : q.names = []) :
    ¬q.LeadsInside p := by
  rw [LeadsInside, if_neg (by simp [h]), hnames]
  rintro ⟨-, hprefix, hne⟩
  exact hne (List.prefix_nil.1 hprefix)

/-- One component leads inside unless it is none, `.` or `..`. -/
theorem leadsInside_push_start_iff :
    ((start false).push c).LeadsInside p ↔ c ≠ [] ∧ c ≠ ['.'] ∧ c ≠ ['.', '.'] := by
  by_cases hnil : c = []
  · rw [hnil]
    exact iff_of_false (not_leadsInside_of_names_eq_nil rfl rfl) fun h => h.1 rfl
  by_cases hdot : c = ['.']
  · rw [hdot]
    exact iff_of_false (not_leadsInside_of_names_eq_nil rfl rfl) fun h => h.2.1 rfl
  by_cases hdots : c = ['.', '.']
  · rw [hdots]
    exact iff_of_false (not_leadsInside_of_names_eq_nil rfl rfl) fun h => h.2.2 rfl
  refine iff_of_true ?_ ⟨hnil, hdot, hdots⟩
  rw [push, if_neg (not_or.2 ⟨hnil, hdot⟩), if_neg hdots]
  simp [LeadsInside, start]

end Normal

/-! ## Joining paths -/

theorem absolute_normalize (path : Text) : (normalize path).absolute = isAbsolute path :=
  Normal.absolute_foldl_push _

theorem splitOn_append_slash (path rest : Text) :
    (path ++ '/' :: rest).splitOn '/' = path.splitOn '/' ++ rest.splitOn '/' :=
  List.splitOnP_append_cons path rest rfl

/-- What comes after a slash is resolved from what comes before it and the slash. -/
theorem normalize_append_slash (path : Text) {rest : Text} (hrest : isAbsolute rest = false) :
    normalize (path ++ '/' :: rest) = (normalize (path ++ ['/'])).resolve (normalize rest) := by
  have habsolute : isAbsolute (path ++ '/' :: rest) = isAbsolute (path ++ ['/']) := by
    cases path <;> rfl
  have hslash : normalize (path ++ ['/']) =
      (path.splitOn '/').foldl Normal.push (Normal.start (isAbsolute (path ++ ['/']))) := by
    rw [normalize, splitOn_append_slash, List.foldl_append]
    exact Normal.push_nil
  rw [normalize, splitOn_append_slash, List.foldl_append, habsolute, ← hslash]
  conv_lhs => rw [← Normal.resolve_start (p := normalize (path ++ ['/']))]
  rw [Normal.foldl_push_resolve rfl, ← hrest, ← normalize]

/-- A slash at the end changes nothing. -/
theorem normalize_slash {path : Text} (hne : path ≠ []) :
    normalize (path ++ ['/']) = normalize path := by
  have habsolute : isAbsolute (path ++ ['/']) = isAbsolute path := by
    cases path with
    | nil => exact absurd rfl hne
    | cons c path => rfl
  rw [normalize, splitOn_append_slash, List.foldl_append, habsolute, ← normalize]
  exact Normal.push_nil

theorem normalize_join (path rest : Text) :
    normalize (join path rest) = (normalize path).resolve (normalize rest) := by
  unfold join
  split
  · rename_i h
    rw [Normal.resolve_of_absolute ((absolute_normalize rest).trans h)]
  rename_i hrest
  have hrest : isAbsolute rest = false := by simpa using hrest
  split
  · rename_i hend
    rcases hend with rfl | hslash
    · -- the path that is joined to is empty
      rw [List.nil_append]
      conv_lhs => rw [normalize, hrest, ← Normal.resolve_start (p := Normal.start false)]
      rw [Normal.foldl_push_resolve rfl, normalize, normalize, hrest]
      rfl
    · obtain ⟨front, rfl⟩ := List.getLast?_eq_some_iff.1 hslash
      rw [List.append_assoc, List.singleton_append, normalize_append_slash front hrest]
  · rename_i hnot
    obtain ⟨hne, hlast⟩ := not_or.1 hnot
    rw [normalize_append_slash path hrest, normalize_slash hne]

theorem normalize_of_component {component : Text} (hslash : '/' ∉ component) :
    normalize component = (Normal.start false).push component := by
  have habsolute : isAbsolute component = false := by
    rw [isAbsolute, decide_eq_false_iff_not]
    intro hhead
    exact hslash (List.mem_of_head? hhead)
  have hsplit : component.splitOn '/' = [component] :=
    List.splitOnP_eq_singleton fun ch hch => by
      rw [beq_eq_false_iff_ne]
      exact ne_of_mem_of_not_mem hch hslash
  rw [normalize, hsplit, habsolute]
  rfl

end Paths
