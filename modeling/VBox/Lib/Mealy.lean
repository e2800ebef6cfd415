import Mathlib.Data.List.Induction

/-!
# Lib.Mealy

Machines that take one input at a time, change state and answer. `state step s as` is where the
inputs `as` lead from `s`, `outputs step s as` the list of answers on the way. `state_invariant`
is the invariant rule: what holds at the start and survives a step holds after every run;
`state_history` also sees the inputs taken so far.
-/

namespace Mealy

variable {σ α ω : Type}

def state (step : σ → α → σ × ω) : σ → List α → σ
  | s, [] => s
  | s, a :: as => state step (step s a).1 as

def outputs (step : σ → α → σ × ω) : σ → List α → List ω
  | _, [] => []
  | s, a :: as => (step s a).2 :: outputs step (step s a).1 as

variable {step : σ → α → σ × ω}

@[simp] theorem state_nil (s : σ) : state step s [] = s := rfl

theorem state_append (s : σ) (as bs : List α) :
    state step s (as ++ bs) = state step (state step s as) bs := by
  induction as generalizing s with
  | nil => rfl
  | cons a as ih => exact ih _

theorem state_concat (s : σ) (as : List α) (a : α) :
    state step s (as ++ [a]) = (step (state step s as) a).1 := by
  rw [state_append]; rfl

theorem outputs_append (s : σ) (as bs : List α) :
    outputs step s (as ++ bs) = outputs step s as ++ outputs step (state step s as) bs := by
  induction as generalizing s with
  | nil => rfl
  | cons a as ih => simp only [List.cons_append, outputs, state, ih]

theorem outputs_concat (s : σ) (as : List α) (a : α) :
    outputs step s (as ++ [a]) = outputs step s as ++ [(step (state step s as) a).2] := by
  rw [outputs_append]; rfl

theorem outputs_length (s : σ) (as : List α) : (outputs step s as).length = as.length := by
  induction as generalizing s with
  | nil => rfl
  | cons a as ih => simp only [outputs, List.length_cons, ih]

/-- Inputs that stand for other inputs. -/
theorem outputs_map {β : Type} {step' : σ → β → σ × ω} {f : β → α}
    (h : ∀ s b, step s (f b) = step' s b) (s : σ) (bs : List β) :
    outputs step s (bs.map f) = outputs step' s bs := by
  induction bs generalizing s with
  | nil => rfl
  | cons b bs ih => simp only [List.map_cons, outputs, h, ih]

/-- Inputs that leave the state alone and all get the same answer. -/
theorem outputs_of_ignored {s : σ} {o : ω} {as : List α} (h : ∀ a ∈ as, step s a = (s, o)) :
    outputs step s as = List.replicate as.length o := by
  induction as with
  | nil => rfl
  | cons a as ih =>
    have ha := h a List.mem_cons_self
    rw [outputs, ha, ih fun b hb => h b (List.mem_cons_of_mem _ hb), List.length_cons,
      List.replicate_succ]

/-- What holds initially and is kept by every step holds after every run. -/
theorem state_invariant {I : σ → Prop} {s : σ} (h0 : I s) (hstep : ∀ s a, I s → I (step s a).1)
    (as : List α) : I (state step s as) := by
  induction as generalizing s with
  | nil => exact h0
  | cons a as ih => exact ih (hstep s a h0)

/-- The same for a property of the inputs taken and the state they lead to. -/
theorem state_history {I : List α → σ → Prop} {s : σ} (h0 : I [] s)
    (hstep : ∀ as a, I as (state step s as) → I (as ++ [a]) (step (state step s as) a).1)
    (as : List α) : I as (state step s as) := by
  induction as using List.reverseRecOn with
  | nil => exact h0
  | append_singleton as a ih => rw [state_concat]; exact hstep as a ih

end Mealy
