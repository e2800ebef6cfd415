import Mathlib.Data.List.Induction

/-!
# Lib.Transducer

Machines that take one input at a time and may fail; a step that does not fail gives the next state
and any number of outputs. `run` takes inputs one after another and gathers the outputs.

* `run_append`: a run in two parts.
* `run_history`: the invariant rule. What a step makes of the inputs, the state and the outputs so
  far, every run makes of them; and if every step from such a state succeeds, no run fails.
-/

namespace Transducer

variable {σ α ω ε : Type}

def run (step : σ → α → Except ε (σ × List ω)) : σ → List α → Except ε (σ × List ω)
  | s, [] => .ok (s, [])
  | s, a :: as => do
    let (s, os) ← step s a
    let (s, os') ← run step s as
    return (s, os ++ os')

variable {step : σ → α → Except ε (σ × List ω)} {s s' : σ} {a : α} {as : List α} {os os' : List ω}

@[simp] theorem run_nil : run step s [] = .ok (s, []) := rfl

theorem run_cons (h : step s a = .ok (s', os)) :
    run step s (a :: as) = (run step s' as).map fun r => (r.1, os ++ r.2) := by
  rw [run, h]
  cases hrest : run step s' as <;>
    simp [hrest, bind, Except.bind, pure, Except.pure, Except.map]

theorem run_append {bs : List α} (h : run step s as = .ok (s', os)) :
    run step s (as ++ bs) = (run step s' bs).map fun r => (r.1, os ++ r.2) := by
  induction as generalizing s os with
  | nil =>
    cases h
    cases hrest : run step s' bs <;> simp [hrest, Except.map]
  | cons a as ih =>
    cases ha : step s a with
    | error e =>
      rw [run, ha] at h
      cases h
    | ok r =>
      obtain ⟨t, os₁⟩ := r
      rw [run_cons ha] at h
      cases has : run step t as with
      | error e =>
        rw [has] at h
        cases h
      | ok r =>
        obtain ⟨t', os₂⟩ := r
        rw [has] at h
        cases h
        rw [List.cons_append, run_cons ha, ih has]
        cases run step t' bs <;> simp [Except.map]

theorem run_concat (h : run step s as = .ok (s', os)) {t : σ} (ha : step s' a = .ok (t, os')) :
    run step s (as ++ [a]) = .ok (t, os ++ os') := by
  rw [run_append h, run_cons ha]
  simp [Except.map]

/-- What holds of no input and no output, and survives a step that takes one more input and adds to
the outputs, holds of every run. -/
theorem run_history {I : List α → σ → List ω → Prop} (h0 : I [] s [])
    (hstep : ∀ as t os a, I as t os →
      ∃ t' os', step t a = .ok (t', os') ∧ I (as ++ [a]) t' (os ++ os'))
    (as : List α) : ∃ t os, run step s as = .ok (t, os) ∧ I as t os := by
  induction as using List.reverseRecOn with
  | nil => exact ⟨s, [], rfl, h0⟩
  | append_singleton as a ih =>
    obtain ⟨t, os, hrun, hI⟩ := ih
    obtain ⟨t', os', ha, hI'⟩ := hstep as t os a hI
    exact ⟨t', os ++ os', run_concat hrun ha, hI'⟩

end Transducer
