import Mathlib.Init

/-!
# Lib.Traces

Labelled transitions, and the labels of a whole run. A machine that reads the labels one at a time
and keeps a relation to the states of the run ends in a related state:

* `Trace.simulates`: a machine that may fail, if it does not.
* `Trace.runs`: a machine that takes every label of the run.
-/

/-- The labels of steps that follow each other. -/
inductive Trace {σ ε : Type} (R : σ → ε → σ → Prop) : σ → List ε → σ → Prop
  | nil {s : σ} : Trace R s [] s
  | cons {s s' s'' : σ} {e : ε} {es : List ε} : R s e s' → Trace R s' es s'' →
      Trace R s (e :: es) s''

namespace Trace

variable {σ ε τ φ : Type} {R : σ → ε → σ → Prop} {s s' s'' : σ} {e : ε} {es es' : List ε}

theorem single (h : R s e s') : Trace R s [e] s' := .cons h .nil

theorem append (h : Trace R s es s') (h' : Trace R s' es' s'') : Trace R s (es ++ es') s'' := by
  induction h with
  | nil => exact h'
  | cons hstep _ ih => exact .cons hstep (ih h')

theorem split (h : Trace R s (es ++ es') s'') : ∃ s', Trace R s es s' ∧ Trace R s' es' s'' := by
  induction es generalizing s with
  | nil => exact ⟨s, .nil, h⟩
  | cons e es ih =>
    cases h with
    | cons hstep hrest =>
      obtain ⟨s', hes, hes'⟩ := ih hrest
      exact ⟨s', .cons hstep hes, hes'⟩

/-- Labels that all leave the state alone. -/
theorem of_forall (h : ∀ e ∈ es, R s e s) : Trace R s es s := by
  induction es with
  | nil => exact .nil
  | cons e es ih =>
    exact .cons (h e List.mem_cons_self) (ih fun e' he' => h e' (List.mem_cons_of_mem _ he'))

section Machine

variable {step : τ → ε → Except φ τ} {Sim : σ → τ → Prop} {t t' : τ}

theorem simulates (h : Trace R s es s')
    (hsim : ∀ s e s' t t', Sim s t → R s e s' → step t e = .ok t' → Sim s' t') (hst : Sim s t)
    (hrun : es.foldlM step t = .ok t') : Sim s' t' := by
  induction h generalizing t with
  | nil =>
    cases hrun
    exact hst
  | @cons s s₁ s' e es hstep _ ih =>
    cases he : step t e with
    | error fault =>
      rw [List.foldlM_cons, he] at hrun
      cases hrun
    | ok t₁ =>
      rw [List.foldlM_cons, he] at hrun
      exact ih (hsim s e s₁ t t₁ hst hstep he) hrun

theorem runs (h : Trace R s es s')
    (hsim : ∀ s e s' t, Sim s t → R s e s' → ∃ t', step t e = .ok t' ∧ Sim s' t') (hst : Sim s t) :
    ∃ t', es.foldlM step t = .ok t' ∧ Sim s' t' := by
  induction h generalizing t with
  | nil => exact ⟨t, rfl, hst⟩
  | @cons s s₁ s' e es hstep _ ih =>
    obtain ⟨t₁, he, hst₁⟩ := hsim s e s₁ t hst hstep
    rw [List.foldlM_cons, he]
    exact ih hst₁

end Machine

end Trace
