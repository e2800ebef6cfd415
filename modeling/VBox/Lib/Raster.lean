import Mathlib.Data.List.Basic

/-!
# Lib.Raster

Row-major images in a list: position `(i, j)` of an image of width `W` is element `j * W + i`.

* `copyRows` copies the rows of one image into the corner of another, `getElem?_copyRows` says
  where each element of the result comes from.
* `paint` overlays a rectangle that may have holes, `getElem?_paint` does the same for it.
* `foldlM_ok`: a loop whose steps do not fail while an invariant holds is a plain fold.
-/

namespace Raster

variable {α : Type}

/-- A position lies in row `r`, from column `x` to `x + w`, exactly when its index lies between the
ends of that run. -/
theorem mem_run_iff {W x w i j r : Nat} (hi : i < W) (hx : x + w ≤ W) :
    (r * W + x ≤ j * W + i ∧ j * W + i < r * W + x + w) ↔ j = r ∧ x ≤ i ∧ i < x + w := by
  obtain hlt | rfl | hgt := Nat.lt_trichotomy j r
  · have : (j + 1) * W ≤ r * W := Nat.mul_le_mul_right W hlt
    rw [Nat.succ_mul] at this
    omega
  · omega
  · have : (r + 1) * W ≤ j * W := Nat.mul_le_mul_right W hgt
    rw [Nat.succ_mul] at this
    omega

theorem index_lt {W H i j : Nat} (hi : i < W) (hj : j < H) : j * W + i < W * H := by
  have : (j + 1) * W ≤ H * W := Nat.mul_le_mul_right W hj
  rw [Nat.succ_mul] at this
  rw [Nat.mul_comm W H]
  omega

theorem mul_add_le {W H w y : Nat} (hw : w ≤ W) (hy : y < H) : y * W + w ≤ W * H := by
  have : (y + 1) * W ≤ H * W := Nat.mul_le_mul_right W hy
  rw [Nat.succ_mul] at this
  rw [Nat.mul_comm W H]
  omega

/-- Two images of one size with the same elements at every position. -/
theorem ext_positions {W H : Nat} {l l' : List α} (hl : l.length = W * H) (hl' : l'.length = W * H)
    (h : ∀ i j, i < W → j < H → l[j * W + i]? = l'[j * W + i]?) : l = l' := by
  apply List.ext_getElem?
  intro n
  by_cases hn : n < W * H
  · have hW : 0 < W := Nat.pos_of_ne_zero fun h0 => by simp [h0] at hn
    have hdiv : n / W < H := (Nat.div_lt_iff_lt_mul hW).2 (by rwa [Nat.mul_comm])
    have := h (n % W) (n / W) (Nat.mod_lt n hW) hdiv
    rwa [Nat.mul_comm (n / W), Nat.div_add_mod] at this
  · rw [List.getElem?_eq_none (by omega), List.getElem?_eq_none (by omega)]

/-! ## Rows joined -/

theorem getElem?_flatten {rows : List (List α)} {n r c : Nat}
    (h : ∀ row ∈ rows, row.length = n) (hc : c < n) :
    rows.flatten[r * n + c]? = rows[r]?.bind fun row => row[c]? := by
  induction rows generalizing r with
  | nil => simp
  | cons row rows ih =>
    have hrow : row.length = n := h row List.mem_cons_self
    cases r with
    | zero => simp [List.getElem?_append, hrow, hc]
    | succ r =>
      have hskip : (r + 1) * n + c - row.length = r * n + c := by
        rw [hrow, Nat.succ_mul]
        omega
      rw [List.flatten_cons, List.getElem?_append_right (by rw [hrow, Nat.succ_mul]; omega), hskip,
        ih fun row' hrow' => h row' (List.mem_cons_of_mem _ hrow')]
      rfl

theorem length_flatten {rows : List (List α)} {n : Nat}
    (h : ∀ row ∈ rows, row.length = n) : rows.flatten.length = rows.length * n := by
  induction rows with
  | nil => simp
  | cons row rows ih =>
    rw [List.flatten_cons, List.length_append, h row List.mem_cons_self,
      ih fun row' hrow' => h row' (List.mem_cons_of_mem _ hrow'), List.length_cons, Nat.succ_mul]
    omega

/-! ## Copying rows -/

/-- `dst[off..off + src.len()].copy_from_slice(src)` -/
def copyFromSlice (dst : List α) (off : Nat) (src : List α) : List α :=
  dst.take off ++ src ++ dst.drop (off + src.length)

theorem copyFromSlice_length {dst src : List α} {off : Nat} (h : off + src.length ≤ dst.length) :
    (copyFromSlice dst off src).length = dst.length := by
  simp [copyFromSlice]
  omega

theorem getElem?_copyFromSlice {dst src : List α} {off : Nat} (h : off + src.length ≤ dst.length)
    (n : Nat) :
    (copyFromSlice dst off src)[n]? =
      if off ≤ n ∧ n < off + src.length then src[n - off]? else dst[n]? := by
  have htake : (dst.take off).length = off := by simp; omega
  rw [copyFromSlice]
  by_cases hlo : n < off
  · rw [List.append_assoc, List.getElem?_append_left (by omega), List.getElem?_take_of_lt hlo,
      if_neg (by omega)]
  by_cases hhi : n < off + src.length
  · rw [List.getElem?_append_left (by simp; omega), List.getElem?_append_right (by omega), htake,
      if_pos (by omega)]
  · rw [List.getElem?_append_right (by simp; omega), List.getElem?_drop, if_neg (by omega)]
    congr 1
    simp only [List.length_append, htake]
    omega

/-- The first `w` elements of the first `h` rows of `src`, an image of width `W'`, copied into
`dst`, an image of width `W`. -/
def copyRows (dst : List α) (W : Nat) (src : List α) (W' w h : Nat) : List α :=
  (List.range h).foldl (fun dst y => copyFromSlice dst (y * W) ((src.drop (y * W')).take w)) dst

theorem copyRows_succ (dst : List α) (W : Nat) (src : List α) (W' w h : Nat) :
    copyRows dst W src W' w (h + 1) =
      copyFromSlice (copyRows dst W src W' w h) (h * W) ((src.drop (h * W')).take w) := by
  simp [copyRows, List.range_succ]

section CopyRows

variable {dst src : List α} {W H W' H' w h : Nat} (hdst : dst.length = W * H)
  (hsrc : src.length = W' * H') (hw : w ≤ W) (hw' : w ≤ W') (hh : h ≤ H) (hh' : h ≤ H')

include hsrc hw' in
theorem row_length {y : Nat} (hy : y < H') : ((src.drop (y * W')).take w).length = w := by
  have := mul_add_le hw' hy
  simp
  omega

include hdst hsrc hw hw' hh hh' in
theorem copyRows_length : (copyRows dst W src W' w h).length = W * H := by
  induction h with
  | zero => simpa [copyRows] using hdst
  | succ h ih =>
    have hprev := ih (by omega) (by omega)
    have hrow := row_length hsrc hw' (y := h) (by omega)
    have hfit := mul_add_le hw (y := h) (H := H) (by omega)
    rw [copyRows_succ, copyFromSlice_length (by omega), hprev]

include hdst hsrc hw hw' hh hh' in
theorem getElem?_copyRows {i j : Nat} (hi : i < W) :
    (copyRows dst W src W' w h)[j * W + i]? =
      if j < h ∧ i < w then src[j * W' + i]? else dst[j * W + i]? := by
  induction h with
  | zero => simp [copyRows]
  | succ h ih =>
    have hlen := copyRows_length hdst hsrc hw hw' (h := h) (by omega) (by omega)
    have hrow := row_length hsrc hw' (y := h) (by omega)
    have hfit := mul_add_le hw (y := h) (H := H) (by omega)
    rw [copyRows_succ, getElem?_copyFromSlice (by omega), hrow, ih (by omega) (by omega)]
    have hmem := mem_run_iff (x := 0) (w := w) (j := j) (r := h) hi (by omega)
    simp only [Nat.add_zero, Nat.zero_add] at hmem
    by_cases hin : j = h ∧ i < w
    · obtain ⟨rfl, hiw⟩ := hin
      rw [if_pos (hmem.2 ⟨rfl, by omega, hiw⟩), if_pos ⟨by omega, hiw⟩, Nat.add_sub_cancel_left,
        List.getElem?_take_of_lt hiw, List.getElem?_drop]
    · rw [if_neg fun hc => hin ⟨(hmem.1 hc).1, (hmem.1 hc).2.2⟩]
      by_cases hb : j < h ∧ i < w
      · rw [if_pos hb, if_pos ⟨by omega, hb.2⟩]
      · rw [if_neg hb, if_neg (by omega)]

end CopyRows

/-! ## Painting a rectangle -/

/-- Element `n` replaced, unless there is nothing to put. -/
def put (px : List α) (n : Nat) : Option α → List α
  | none => px
  | some p => px.set n p

@[simp] theorem put_length (px : List α) (n : Nat) (v : Option α) :
    (put px n v).length = px.length := by
  cases v <;> simp [put]

theorem getElem?_put (px : List α) (n : Nat) (v : Option α) (m : Nat) :
    (put px n v)[m]? = px[m]?.map fun old => if m = n then v.getD old else old := by
  cases v with
  | none => simp [put]
  | some p =>
    by_cases hm : m = n
    · subst hm
      by_cases hlt : m < px.length <;> simp [put, hlt]
    · simp [put, hm, Ne.symm hm]

/-- The row `v 0, .., v (w - 1)` put at `base`; where `v` has a hole the old element stays. -/
def paintRow (v : Nat → Option α) (base w : Nat) (px : List α) : List α :=
  (List.range w).foldl (fun px c => put px (base + c) (v c)) px

/-- The rectangle `v` put at column `x` and row `y` of an image of width `W`. -/
def paint (W x y w h : Nat) (v : Nat → Nat → Option α) (px : List α) : List α :=
  (List.range h).foldl (fun px r => paintRow (v r) ((y + r) * W + x) w px) px

theorem paintRow_succ (v : Nat → Option α) (base w : Nat) (px : List α) :
    paintRow v base (w + 1) px = put (paintRow v base w px) (base + w) (v w) := by
  simp [paintRow, List.range_succ]

theorem paint_succ (W x y w h : Nat) (v : Nat → Nat → Option α) (px : List α) :
    paint W x y w (h + 1) v px = paintRow (v h) ((y + h) * W + x) w (paint W x y w h v px) := by
  simp [paint, List.range_succ]

@[simp] theorem paintRow_length (v : Nat → Option α) (base w : Nat) (px : List α) :
    (paintRow v base w px).length = px.length := by
  induction w with
  | zero => rfl
  | succ w ih => rw [paintRow_succ, put_length, ih]

@[simp] theorem paint_length (W x y w h : Nat) (v : Nat → Nat → Option α) (px : List α) :
    (paint W x y w h v px).length = px.length := by
  induction h with
  | zero => rfl
  | succ h ih => rw [paint_succ, paintRow_length, ih]

theorem getElem?_paintRow (v : Nat → Option α) (base w : Nat) (px : List α) (n : Nat) :
    (paintRow v base w px)[n]? =
      px[n]?.map fun old => if base ≤ n ∧ n < base + w then (v (n - base)).getD old else old := by
  induction w with
  | zero =>
    have : ¬ (base ≤ n ∧ n < base + 0) := by omega
    simp only [this, if_false, Option.map_id']
    rfl
  | succ w ih =>
    rw [paintRow_succ, getElem?_put, ih, Option.map_map]
    congr 1
    funext old
    simp only [Function.comp]
    by_cases hn : n = base + w
    · subst hn
      simp
    · have : (base ≤ n ∧ n < base + w) ↔ (base ≤ n ∧ n < base + (w + 1)) := by omega
      simp only [if_neg hn, this]

theorem getElem?_paint {W x y w h : Nat} {v : Nat → Nat → Option α} {px : List α} {i j : Nat}
    (hi : i < W) (hx : x + w ≤ W) :
    (paint W x y w h v px)[j * W + i]? =
      px[j * W + i]?.map fun old =>
        if y ≤ j ∧ j < y + h ∧ x ≤ i ∧ i < x + w then (v (j - y) (i - x)).getD old else old := by
  induction h with
  | zero =>
    have : ¬ (y ≤ j ∧ j < y + 0 ∧ x ≤ i ∧ i < x + w) := by omega
    simp only [this, if_false, Option.map_id']
    rfl
  | succ h ih =>
    have hmem := mem_run_iff (j := j) (r := y + h) hi hx
    rw [paint_succ, getElem?_paintRow, ih, Option.map_map]
    congr 1
    funext old
    simp only [Function.comp]
    by_cases hin : j = y + h ∧ x ≤ i ∧ i < x + w
    · have hsub : j * W + i - ((y + h) * W + x) = i - x := by rw [hin.1]; omega
      have hrow : j - y = h := by omega
      rw [if_pos (hmem.2 hin), if_neg (by omega), if_pos (by omega), hsub, hrow]
    · rw [if_neg fun hc => hin (hmem.1 hc)]
      have : (y ≤ j ∧ j < y + h ∧ x ≤ i ∧ i < x + w) ↔
          (y ≤ j ∧ j < y + (h + 1) ∧ x ≤ i ∧ i < x + w) := by omega
      simp only [this]

/-- Columns with nothing to put need not be visited. -/
theorem paintRow_of_none {v : Nat → Option α} {base w w' : Nat} (hle : w' ≤ w)
    (h : ∀ c, w' ≤ c → c < w → v c = none) (px : List α) :
    paintRow v base w px = paintRow v base w' px := by
  induction w with
  | zero =>
    obtain rfl : w' = 0 := Nat.le_zero.1 hle
    rfl
  | succ w ih =>
    by_cases heq : w' = w + 1
    · rw [heq]
    · rw [paintRow_succ, h w (by omega) (by omega), ih (by omega) fun c hc hlt => h c hc (by omega)]
      rfl

theorem paint_of_none {W x y w w' h : Nat} {v : Nat → Nat → Option α} (hle : w' ≤ w)
    (hnone : ∀ r, r < h → ∀ c, w' ≤ c → c < w → v r c = none) (px : List α) :
    paint W x y w h v px = paint W x y w' h v px := by
  induction h with
  | zero => rfl
  | succ h ih =>
    rw [paint_succ, paint_succ, ih fun r hr => hnone r (by omega),
      paintRow_of_none hle (hnone h (by omega))]

/-- A rectangle may reach beyond the image where there is nothing to put. -/
theorem getElem?_paint_clipped {W x y w h : Nat} {v : Nat → Nat → Option α} {px : List α}
    {i j : Nat} (hi : i < W) (hx : x ≤ W)
    (hclip : ∀ r, r < h → ∀ c, c < w → W ≤ x + c → v r c = none) :
    (paint W x y w h v px)[j * W + i]? =
      px[j * W + i]?.map fun old =>
        if y ≤ j ∧ j < y + h ∧ x ≤ i ∧ i < x + w then (v (j - y) (i - x)).getD old else old := by
  rw [paint_of_none (Nat.min_le_left w (W - x)) (fun r hr c hc hlt => hclip r hr c hlt (by omega)),
    getElem?_paint hi (by omega)]
  have hmem : (y ≤ j ∧ j < y + h ∧ x ≤ i ∧ i < x + min w (W - x)) ↔
      (y ≤ j ∧ j < y + h ∧ x ≤ i ∧ i < x + w) := by omega
  simp only [hmem]

/-! ## Loops -/

theorem bind_eq_ok {ε β γ : Type} {x : Except ε β} {f : β → Except ε γ} {c : γ} :
    x >>= f = .ok c ↔ ∃ b, x = .ok b ∧ f b = .ok c := by
  cases x with
  | error e =>
    constructor
    · intro h; cases h
    · rintro ⟨b, hb, -⟩; cases hb
  | ok b => exact ⟨fun h => ⟨b, rfl, h⟩, fun ⟨_, hb, h⟩ => by cases hb; exact h⟩

/-- A loop whose steps succeed as long as the invariant holds. -/
theorem foldlM_ok {σ β ε : Type} {f : σ → β → Except ε σ} {g : σ → β → σ} {I : σ → Prop}
    {l : List β}
    (h : ∀ b ∈ l, ∀ s, I s → f s b = .ok (g s b) ∧ I (g s b)) {s : σ} (hs : I s) :
    l.foldlM f s = .ok (l.foldl g s) ∧ I (l.foldl g s) := by
  induction l generalizing s with
  | nil => exact ⟨rfl, hs⟩
  | cons b l ih =>
    obtain ⟨hok, hI⟩ := h b List.mem_cons_self s hs
    rw [List.foldlM_cons, hok, List.foldl_cons]
    exact ih (fun b' hb' => h b' (List.mem_cons_of_mem _ hb')) hI

/-- A loop that succeeds, with steps whose result is known when they succeed. -/
theorem foldlM_eq {σ β ε : Type} {f : σ → β → Except ε σ} {g : σ → β → σ} {I : σ → Prop} {l : List β}
    (h : ∀ b ∈ l, ∀ s s', I s → f s b = .ok s' → s' = g s b ∧ I s') {s s' : σ} (hs : I s)
    (hrun : l.foldlM f s = .ok s') : s' = l.foldl g s := by
  induction l generalizing s with
  | nil => cases hrun; rfl
  | cons b l ih =>
    rw [List.foldlM_cons] at hrun
    obtain ⟨s₁, hb, hrest⟩ := bind_eq_ok.1 hrun
    obtain ⟨rfl, hI⟩ := h b List.mem_cons_self s s₁ hs hb
    exact ih (fun b' hb' => h b' (List.mem_cons_of_mem _ hb')) hI hrest

theorem mapM_eq {β γ ε : Type} {f : β → Except ε γ} {g : β → γ} {l : List β}
    (h : ∀ b ∈ l, f b = .ok (g b)) : l.mapM f = .ok (l.map g) := by
  induction l with
  | nil => rfl
  | cons b l ih =>
    rw [List.mapM_cons, h b List.mem_cons_self, ih fun b' hb' => h b' (List.mem_cons_of_mem _ hb')]
    rfl

/-- The rows a loop collects. -/
theorem mapM_spec {β γ ε : Type} {f : β → Except ε γ} {l : List β} {cs : List γ}
    (h : l.mapM f = .ok cs) : cs.length = l.length ∧ ∀ c ∈ cs, ∃ b ∈ l, f b = .ok c := by
  induction l generalizing cs with
  | nil =>
    cases h
    exact ⟨rfl, fun c hc => by cases hc⟩
  | cons b l ih =>
    rw [List.mapM_cons] at h
    obtain ⟨c', hc', h⟩ := bind_eq_ok.1 h
    obtain ⟨cs', hcs, h⟩ := bind_eq_ok.1 h
    cases h
    obtain ⟨hlen, hmem⟩ := ih hcs
    refine ⟨by rw [List.length_cons, List.length_cons, hlen], fun c hc => ?_⟩
    obtain rfl | hc := List.mem_cons.1 hc
    · exact ⟨b, List.mem_cons_self, hc'⟩
    · obtain ⟨b', hb', hf⟩ := hmem c hc
      exact ⟨b', List.mem_cons_of_mem _ hb', hf⟩

theorem mapM_congr {β γ ε : Type} {f g : β → Except ε γ} {l : List β} (h : ∀ b ∈ l, f b = g b) :
    l.mapM f = l.mapM g := by
  induction l with
  | nil => rfl
  | cons b l ih =>
    rw [List.mapM_cons, List.mapM_cons, h b List.mem_cons_self,
      ih fun b' hb' => h b' (List.mem_cons_of_mem _ hb')]

theorem mapM_mem {β γ ε : Type} {f : β → Except ε γ} {l : List β} {cs : List γ}
    (h : l.mapM f = .ok cs) {b : β} (hb : b ∈ l) : ∃ c, f b = .ok c := by
  induction l generalizing cs with
  | nil => cases hb
  | cons b' l ih =>
    rw [List.mapM_cons] at h
    obtain ⟨c', hc', h⟩ := bind_eq_ok.1 h
    obtain ⟨cs', hcs, -⟩ := bind_eq_ok.1 h
    obtain rfl | hb := List.mem_cons.1 hb
    · exact ⟨c', hc'⟩
    · exact ih hcs hb

/-- A loop fails with the error of one of its steps. -/
theorem mapM_error {β γ ε : Type} {f : β → Except ε γ} {l : List β} {e : ε}
    (h : l.mapM f = .error e) : ∃ b ∈ l, f b = .error e := by
  induction l with
  | nil => cases h
  | cons b l ih =>
    rw [List.mapM_cons] at h
    cases hb : f b with
    | error e' =>
      rw [hb] at h
      cases h
      exact ⟨b, List.mem_cons_self, hb⟩
    | ok c =>
      cases hl : l.mapM f with
      | error e' =>
        rw [hb, hl] at h
        cases h
        obtain ⟨b', hb', hf⟩ := ih hl
        exact ⟨b', List.mem_cons_of_mem _ hb', hf⟩
      | ok cs =>
        rw [hb, hl] at h
        cases h

/-- In a loop that succeeds every step does. -/
theorem foldlM_mem {σ β ε : Type} {f : σ → β → Except ε σ} {l : List β} {s s' : σ}
    (hrun : l.foldlM f s = .ok s') {b : β} (hb : b ∈ l) : ∃ t t', f t b = .ok t' := by
  induction l generalizing s with
  | nil => cases hb
  | cons b' l ih =>
    rw [List.foldlM_cons] at hrun
    obtain ⟨s₁, hstep, hrest⟩ := bind_eq_ok.1 hrun
    obtain rfl | hb := List.mem_cons.1 hb
    · exact ⟨s, s₁, hstep⟩
    · exact ih hrest hb

/-- What every successful step keeps, a successful loop keeps. -/
theorem foldlM_invariant_mem {σ β ε : Type} {f : σ → β → Except ε σ} {I : σ → Prop} {l : List β}
    (h : ∀ b ∈ l, ∀ s s', I s → f s b = .ok s' → I s') {s s' : σ} (hs : I s)
    (hrun : l.foldlM f s = .ok s') : I s' := by
  induction l generalizing s with
  | nil => cases hrun; exact hs
  | cons b l ih =>
    rw [List.foldlM_cons] at hrun
    obtain ⟨s₁, hb, hrest⟩ := bind_eq_ok.1 hrun
    exact ih (fun b' hb' => h b' (List.mem_cons_of_mem _ hb')) (h b List.mem_cons_self s s₁ hs hb) hrest

theorem foldlM_invariant {σ β ε : Type} {f : σ → β → Except ε σ} {I : σ → Prop}
    (h : ∀ b s s', I s → f s b = .ok s' → I s') {l : List β} {s s' : σ} (hs : I s)
    (hrun : l.foldlM f s = .ok s') : I s' :=
  foldlM_invariant_mem (fun b _ => h b) hs hrun

end Raster
