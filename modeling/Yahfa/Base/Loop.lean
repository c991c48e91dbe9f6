/-!
# Loops that need not stop

A round of a loop either ends it with a result or goes round again; a round that
runs a loop of its own may also have no result. `run` goes round as often as it
has fuel, and more fuel never changes a result (`run_mono`).

`run_of_invariant` is the rule for total correctness: an invariant that every round
keeps, and a number that every round lowers.
-/

namespace Loop

/-- What a round of a loop comes to. -/
inductive Round (σ ρ : Type) where
  | again (s : σ)
  | exit (r : ρ)
deriving DecidableEq, Repr

variable {σ ρ : Type}

/-- A condition on what a round comes to: one on the next state, one on the result. -/
def Round.Meets (next : σ → Prop) (post : ρ → Prop) : Round σ ρ → Prop
  | .again s => next s
  | .exit r => post r

/-- Run a loop. -/
def run (body : σ → Option (Round σ ρ)) : Nat → σ → Option ρ
  | 0, _ => none
  | fuel + 1, s =>
      match body s with
      | none => none
      | some (.exit r) => some r
      | some (.again s') => run body fuel s'

variable {body body' : σ → Option (Round σ ρ)} {fuel fuel' : Nat} {s : σ} {r : ρ}

/-- A loop that has a result has the same with more fuel, also if its rounds have
some themselves. -/
theorem run_mono (hbody : ∀ s x, body s = some x → body' s = some x) (hfuel : fuel ≤ fuel')
    (h : run body fuel s = some r) : run body' fuel' s = some r := by
  induction fuel generalizing fuel' s with
  | zero => cases h
  | succ fuel ih =>
      cases fuel' with
      | zero => cases hfuel
      | succ fuel' =>
          cases hx : body s with
          | none =>
              rw [run, hx] at h
              cases h
          | some x =>
              rw [run, hbody s x hx]
              rw [run, hx] at h
              cases x with
              | exit r' => exact h
              | again s' => exact ih (Nat.le_of_succ_le_succ hfuel) h

/-- Total correctness: if every round keeps the invariant and lowers the variant,
or ends the loop with the postcondition, the loop ends with the postcondition. -/
theorem run_of_invariant {inv : σ → Prop} {variant : σ → Nat} {post : ρ → Prop}
    (hround : ∀ s, inv s → ∃ x, body s = some x ∧
      x.Meets (fun s' => inv s' ∧ variant s' < variant s) post)
    (hs : inv s) (hfuel : variant s < fuel) : ∃ r, run body fuel s = some r ∧ post r := by
  induction fuel generalizing s with
  | zero => cases hfuel
  | succ fuel ih =>
      rcases hround s hs with ⟨x, hx, hmeets⟩
      rw [run, hx]
      cases x with
      | exit r => exact ⟨r, rfl, hmeets⟩
      | again s' =>
          rcases hmeets with ⟨hs', hlt⟩
          exact ih hs' (Nat.lt_of_lt_of_le hlt (Nat.le_of_lt_succ hfuel))

/-- The same with a variant that the state alone does not tell. -/
theorem run_of_ranked {inv : Nat → σ → Prop} {post : ρ → Prop} {rank : Nat}
    (hround : ∀ k s, inv k s → ∃ x, body s = some x ∧ x.Meets (fun s' => ∃ k' < k, inv k' s') post)
    (hs : inv rank s) : ∃ r, (∀ fuel, rank < fuel → run body fuel s = some r) ∧ post r := by
  induction rank using Nat.strongRecOn generalizing s with
  | ind rank ih =>
      rcases hround rank s hs with ⟨x, hx, hmeets⟩
      cases x with
      | exit r =>
          refine ⟨r, fun fuel hfuel => ?_, hmeets⟩
          cases fuel with
          | zero => cases hfuel
          | succ fuel => rw [run, hx]
      | again s' =>
          rcases hmeets with ⟨k', hlt, hs'⟩
          rcases ih k' hlt hs' with ⟨r, hrun, hr⟩
          refine ⟨r, fun fuel hfuel => ?_, hr⟩
          cases fuel with
          | zero => cases hfuel
          | succ fuel =>
              rw [run, hx]
              exact hrun fuel (Nat.lt_of_lt_of_le hlt (Nat.le_of_lt_succ hfuel))

/-! ## Results that need enough fuel -/

/-- From some fuel on, the result is always `r`. -/
def Returns (f : Nat → Option ρ) (r : ρ) : Prop := ∃ least, ∀ fuel, least ≤ fuel → f fuel = some r

variable {ρ' : Type} {f : Nat → Option ρ}

theorem Returns.unique {r' : ρ} (h : Returns f r) (h' : Returns f r') : r = r' := by
  rcases h with ⟨least, h⟩
  rcases h' with ⟨least', h'⟩
  have heq := (h _ (Nat.le_max_left least least')).symm.trans (h' _ (Nat.le_max_right least least'))
  exact Option.some.inj heq

theorem Returns.congr {f' : Nat → Option ρ} (h : Returns f r) (heq : ∀ fuel, f' fuel = f fuel) :
    Returns f' r := by
  rcases h with ⟨least, h⟩
  exact ⟨least, fun fuel hfuel => (heq fuel).trans (h fuel hfuel)⟩

/-- One computation after another. -/
theorem Returns.bind {g : ρ → Nat → Option ρ'} {r' : ρ'} (h : Returns f r) (hg : Returns (g r) r') :
    Returns (fun fuel => (f fuel).bind fun x => g x fuel) r' := by
  rcases h with ⟨least, h⟩
  rcases hg with ⟨least', hg⟩
  refine ⟨Nat.max least least', fun fuel hfuel => ?_⟩
  have hfirst := h fuel (Nat.le_trans (Nat.le_max_left least least') hfuel)
  have hsecond := hg fuel (Nat.le_trans (Nat.le_max_right least least') hfuel)
  simp only [hfirst, Option.bind_some, hsecond]

theorem returns_some (r : ρ) : Returns (fun _ => some r) r := ⟨0, fun _ _ => rfl⟩

theorem Returns.exists_iff {P : ρ → Prop} (h : Returns f r) : (∃ r', Returns f r' ∧ P r') ↔ P r := by
  constructor
  · rintro ⟨r', h', hP⟩
    rwa [h.unique h']
  · intro hP
    exact ⟨r, h, hP⟩

theorem Returns.map (g : ρ → ρ') (h : Returns f r) : Returns (fun fuel => (f fuel).map g) (g r) := by
  rcases h with ⟨least, h⟩
  refine ⟨least, ?_⟩
  intro fuel hfuel
  exact congrArg (Option.map g) (h fuel hfuel)

end Loop
