import Mathlib.Logic.Relation

/-!
# Runs of a transition system

State predicates, actions and the states an action reaches, with the rule all
safety results go through: what holds initially and is preserved by every step
holds in every reachable state.
-/

universe u

namespace Trace

/-- A state predicate. -/
abbrev StatePred (σ : Type u) := σ → Prop

/-- An action relates a state to a possible next state. -/
abbrev Action (σ : Type u) := σ → σ → Prop

/-- The states some run of `next` from an initial state passes through. -/
inductive Reachable {σ : Type u} (init : StatePred σ) (next : Action σ) : StatePred σ
  | init {s : σ} (h : init s) : Reachable init next s
  | step {s s' : σ} (h : Reachable init next s) (hstep : next s s') : Reachable init next s'

/-- Invariant induction. -/
theorem init_invariant {σ : Type u} {init : StatePred σ} {next : Action σ} {inv : StatePred σ}
    (hinit : ∀ s, init s → inv s) (hstep : ∀ s s', next s s' → inv s → inv s') :
    ∀ s, Reachable init next s → inv s := by
  intro s hs
  induction hs with
  | init h => exact hinit _ h
  | step _ hnext ih => exact hstep _ _ hnext ih

end Trace
