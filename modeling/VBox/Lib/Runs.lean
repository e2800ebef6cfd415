import Mathlib.Data.List.Induction
import Mathlib.Data.List.Infix

/-!
# Lib.Runs

Runs of a step function: the states that a list of events leads through.

* `forall_prefix_iff`: when a step keeps a property exactly if the event is allowed, the property
  holds all along a run exactly if every event of the run is allowed where it happens.
* `forall_prefix_iff_of_ok`: the same for steps that may fail and end the run.
* `forall_step_cons`: a condition on every step of a run, checked one step at a time.
* `foldl_iff`: when a property that is lost never comes back, its end decides a whole run.
-/

namespace Runs

variable {σ ε : Type} {step : σ → ε → σ} {I : σ → Prop} {Allowed : σ → ε → Prop} {s : σ}

theorem forall_prefix_iff (h0 : I s) (hstep : ∀ s e, I s → (I (step s e) ↔ Allowed s e))
    (events : List ε) :
    (∀ past, past <+: events → I (past.foldl step s)) ↔
      ∀ past e, past ++ [e] <+: events → Allowed (past.foldl step s) e := by
  constructor
  · intro hall past e hpre
    have hpast := hall past ((List.prefix_append past [e]).trans hpre)
    have hnext := hall _ hpre
    rw [List.foldl_append] at hnext
    exact (hstep _ e hpast).1 hnext
  · intro hall past hpre
    induction past using List.reverseRecOn with
    | nil => exact h0
    | append_singleton past e ih =>
      rw [List.foldl_append]
      exact (hstep _ e (ih ((List.prefix_append past [e]).trans hpre))).2 (hall past e hpre)

section Along

theorem forall_step_nil : ∀ past e, past ++ [e] <+: ([] : List ε) → Allowed (past.foldl step s) e := by
  intro past e hpre
  simp at hpre

/-- What is asked of every step of a run, asked of its first step and of the rest of the run. -/
theorem forall_step_cons {e : ε} {events : List ε} :
    (∀ past e', past ++ [e'] <+: e :: events → Allowed (past.foldl step s) e') ↔
      Allowed s e ∧
        ∀ past e', past ++ [e'] <+: events → Allowed (past.foldl step (step s e)) e' := by
  constructor
  · intro h
    refine ⟨h [] e ?_, fun past e' hpre => h (e :: past) e' ?_⟩
    · simp
    · simpa using hpre
  · rintro ⟨hfirst, hrest⟩ past e' hpre
    cases past with
    | nil =>
      obtain rfl : e' = e := by simpa using hpre
      exact hfirst
    | cons e'' past =>
      obtain ⟨rfl, hpast⟩ := List.cons_prefix_cons.1 hpre
      exact hrest past e' hpast

end Along

section Stable

variable {Inv : σ → Prop}

theorem foldl_inv (h0 : Inv s) (hinv : ∀ s e, Inv s → Inv (step s e)) (events : List ε) :
    Inv (events.foldl step s) := by
  induction events generalizing s with
  | nil => exact h0
  | cons e events ih => exact ih (hinv s e h0)

theorem foldl_iff (h0 : I s) (hinv0 : Inv s) (hinv : ∀ s e, Inv s → Inv (step s e))
    (hstep : ∀ s e, Inv s → (I (step s e) ↔ I s ∧ Allowed s e)) (events : List ε) :
    I (events.foldl step s) ↔
      ∀ past e, past ++ [e] <+: events → Allowed (past.foldl step s) e := by
  induction events using List.reverseRecOn with
  | nil =>
    refine iff_of_true h0 fun past e hpre => ?_
    simp at hpre
  | append_singleton events last ih =>
    rw [List.foldl_append, List.foldl_cons, List.foldl_nil, hstep _ _ (foldl_inv hinv0 hinv events), ih]
    constructor
    · rintro ⟨hpast, hlast⟩ past e hpre
      obtain heq | hpre := List.prefix_concat_iff.1 hpre
      · obtain ⟨rfl, hone⟩ := List.append_inj' heq rfl
        obtain rfl := List.singleton_inj.1 hone
        exact hlast
      · exact hpast past e hpre
    · intro hall
      exact ⟨fun past e hpre => hall past e (hpre.trans (List.prefix_append _ _)),
        hall events last (List.prefix_refl _)⟩

end Stable

section Failing

variable {φ : Type} {next : σ → ε → Except φ σ}

theorem foldlM_concat (s : σ) (past : List ε) (e : ε) :
    (past ++ [e]).foldlM next s = past.foldlM next s >>= fun s' => next s' e := by
  simp

theorem forall_prefix_iff_of_ok {events : List ε} (h0 : I s)
    (hstep : ∀ e ∈ events, ∀ s s', I s → next s e = .ok s' → (I s' ↔ Allowed s e))
    (hfault : ∀ e ∈ events, ∀ s fault, next s e = .error fault → Allowed s e) :
    (∀ past s', past <+: events → past.foldlM next s = .ok s' → I s') ↔
      ∀ past e s', past ++ [e] <+: events → past.foldlM next s = .ok s' → Allowed s' e := by
  constructor
  · intro hall past e s' hpre hrun
    have hmem : e ∈ events := hpre.subset (List.mem_append_right _ List.mem_cons_self)
    cases hnext : next s' e with
    | error fault => exact hfault e hmem s' fault hnext
    | ok s'' =>
      have hs' := hall past s' ((List.prefix_append past [e]).trans hpre) hrun
      refine (hstep e hmem s' s'' hs' hnext).1 (hall _ s'' hpre ?_)
      rw [foldlM_concat, hrun]
      exact hnext
  · intro hall past
    induction past using List.reverseRecOn with
    | nil =>
      intro s' _ hrun
      cases hrun
      exact h0
    | append_singleton past e ih =>
      intro s'' hpre hrun
      have hmem : e ∈ events := hpre.subset (List.mem_append_right _ List.mem_cons_self)
      rw [foldlM_concat] at hrun
      cases hpast : past.foldlM next s with
      | error fault =>
        rw [hpast] at hrun
        cases hrun
      | ok s' =>
        rw [hpast] at hrun
        have hs' := ih s' ((List.prefix_append past [e]).trans hpre) hpast
        exact (hstep e hmem s' s'' hs' hrun).2 (hall past e s' hpre hpast)

end Failing

end Runs
