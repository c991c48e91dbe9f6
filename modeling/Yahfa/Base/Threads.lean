import Yahfa.Base.Trace
import Mathlib.Algebra.BigOperators.Group.Finset.Piecewise
import Mathlib.Data.Fintype.Option

/-!
# Threads, locks and assertions

Threads run a program over shared variables, one step of one thread at a time,
and exclude each other by locks. Which locks a thread has is read off where it
stands (`Annotated`), so that no two threads stand where the same lock is held
(`Owned.unique`).

`Asserted` is the rule for everything else: an assertion for every place in the
program, kept by the thread's own steps and by the steps of any other thread
that holds no lock in common with it. `measure_lt` is the rule for progress: a
number for every place, lowered by every step.
-/

namespace Threads

open Trace

variable {T Pc V L : Type}

/-- A program: from a place and values of the variables, where a step leads. -/
structure Program (T Pc V L : Type) where
  /-- A step that takes and releases no lock. -/
  run : T → Pc → V → Pc → V → Prop
  /-- A step that takes a lock. -/
  lock : Pc → L → Pc → Prop
  /-- A step that releases a lock. -/
  unlock : Pc → L → V → Pc → V → Prop

/-- Where the threads stand, the variables, and who has the locks. -/
structure State (T Pc V L : Type) where
  pc : T → Pc
  vars : V
  owner : L → Option T

/-- A step on the variables, whether it releases a lock or not. -/
def Program.Acts (P : Program T Pc V L) (t : T) (pc : Pc) (v : V) (pc' : Pc) (v' : V) : Prop :=
  P.run t pc v pc' v' ∨ ∃ l, P.unlock pc l v pc' v'

variable [DecidableEq T] [DecidableEq L]

/-- A step of one thread. -/
inductive StepBy (P : Program T Pc V L) (t : T) : Action (State T Pc V L)
  | run {s : State T Pc V L} {pc : Pc} {v : V} (h : P.run t (s.pc t) s.vars pc v) :
      StepBy P t s ⟨Function.update s.pc t pc, v, s.owner⟩
  | lock {s : State T Pc V L} {pc : Pc} {l : L} (h : P.lock (s.pc t) l pc)
      (hfree : s.owner l = none) :
      StepBy P t s ⟨Function.update s.pc t pc, s.vars, Function.update s.owner l (some t)⟩
  | unlock {s : State T Pc V L} {pc : Pc} {v : V} {l : L} (h : P.unlock (s.pc t) l s.vars pc v) :
      StepBy P t s ⟨Function.update s.pc t pc, v, Function.update s.owner l none⟩

/-- A step of any thread. -/
def Step (P : Program T Pc V L) : Action (State T Pc V L) := fun s s' => ∃ t, StepBy P t s s'

/-! ## Locks -/

/-- The locks held at a place, as the steps of the program change them. -/
structure Annotated (P : Program T Pc V L) (held : Pc → L → Prop) : Prop where
  run : ∀ {t pc v pc' v'}, P.run t pc v pc' v' → ∀ l, held pc' l ↔ held pc l
  lock : ∀ {pc l pc'}, P.lock pc l pc' → ∀ k, held pc' k ↔ k = l ∨ held pc k
  unlock : ∀ {pc l v pc' v'}, P.unlock pc l v pc' v' →
    held pc l ∧ ∀ k, held pc' k ↔ k ≠ l ∧ held pc k

/-- A lock belongs to the thread that stands where it is held. -/
def Owned (held : Pc → L → Prop) (s : State T Pc V L) : Prop :=
  ∀ l t, s.owner l = some t ↔ held (s.pc t) l

variable {P : Program T Pc V L} {held : Pc → L → Prop} {s s' : State T Pc V L} {t u : T} {l : L}

omit [DecidableEq T] [DecidableEq L] in
theorem Owned.unique (h : Owned held s) (ht : held (s.pc t) l) (hu : held (s.pc u) l) : t = u :=
  Option.some.inj (((h l t).mpr ht).symm.trans ((h l u).mpr hu))

theorem Owned.step (hP : Annotated P held) (h : Owned held s) (hstep : StepBy P t s s') :
    Owned held s' := by
  intro k u
  cases hstep with
  | run hrun =>
      by_cases hu : u = t
      · subst hu
        simp only [Function.update_self, hP.run hrun k]
        exact h k u
      · simp only [Function.update_of_ne hu]
        exact h k u
  | @lock _ pc l hlock hfree =>
      have hlocked := hP.lock hlock k
      by_cases hk : k = l
      · -- the lock has been free, so that nobody else stands where it is held
        subst hk
        by_cases hu : u = t
        · subst hu
          simp [hlocked]
        · simp only [Function.update_self, Function.update_of_ne hu, Option.some.injEq,
            ← h k u, hfree]
          simp [Ne.symm hu]
      · simp only [Function.update_of_ne hk]
        by_cases hu : u = t
        · subst hu
          simp only [Function.update_self, hlocked, hk, false_or]
          exact h k u
        · simp only [Function.update_of_ne hu]
          exact h k u
  | @unlock _ pc v l hunlock =>
      rcases hP.unlock hunlock with ⟨hheld, hleft⟩
      by_cases hk : k = l
      · subst hk
        by_cases hu : u = t
        · subst hu
          simp [hleft]
        · simp only [Function.update_self, Function.update_of_ne hu, reduceCtorEq, false_iff]
          exact fun hother => hu (h.unique hother hheld)
      · simp only [Function.update_of_ne hk]
        by_cases hu : u = t
        · subst hu
          simp only [Function.update_self, hleft, ne_eq, hk, not_false_eq_true, true_and]
          exact h k u
        · simp only [Function.update_of_ne hu]
          exact h k u

/-! ## Assertions -/

/-- Two places no lock keeps apart. -/
def Together (held : Pc → L → Prop) (pc q : Pc) : Prop := ∀ l, held pc l → ¬ held q l

/-- The program keeps a condition on the variables and an assertion for every
place: with its own steps, and with those of a thread elsewhere. -/
structure Asserted (P : Program T Pc V L) (held : Pc → L → Prop) (G : V → Prop)
    (A : T → Pc → V → Prop) : Prop where
  acts : ∀ {t pc v pc' v'}, P.Acts t pc v pc' v' → G v → A t pc v → G v' ∧ A t pc' v'
  lock : ∀ {t pc l pc' v}, P.lock pc l pc' → G v → A t pc v → A t pc' v
  others : ∀ {t u pc v pc' v' q}, P.Acts t pc v pc' v' → G v → A t pc v → t ≠ u →
    Together held pc q → A u q v → A u q v'

/-- The condition and the assertions hold where the threads stand. -/
structure Holds (held : Pc → L → Prop) (G : V → Prop) (A : T → Pc → V → Prop)
    (s : State T Pc V L) : Prop where
  owned : Owned held s
  vars : G s.vars
  pc : ∀ t, A t (s.pc t) s.vars

theorem Holds.step {G : V → Prop} {A : T → Pc → V → Prop} (hP : Annotated P held)
    (hA : Asserted P held G A) (h : Holds held G A s) (hstep : StepBy P t s s') :
    Holds held G A s' := by
  have howned := h.owned.step hP hstep
  -- a step on the variables
  have hacts : ∀ {pc v}, P.Acts t (s.pc t) s.vars pc v →
      G v ∧ ∀ u, A u (Function.update s.pc t pc u) v := by
    intro pc v hact
    rcases hA.acts hact h.vars (h.pc t) with ⟨hG, hown⟩
    refine ⟨hG, fun u => ?_⟩
    by_cases hu : u = t
    · subst hu
      rwa [Function.update_self]
    · rw [Function.update_of_ne hu]
      refine hA.others hact h.vars (h.pc t) (Ne.symm hu) ?_ (h.pc u)
      exact fun l ht hul => hu (h.owned.unique hul ht)
  cases hstep with
  | run hrun =>
      rcases hacts (Or.inl hrun) with ⟨hG, hpc⟩
      exact ⟨howned, hG, hpc⟩
  | unlock hunlock =>
      rcases hacts (Or.inr ⟨_, hunlock⟩) with ⟨hG, hpc⟩
      exact ⟨howned, hG, hpc⟩
  | lock hlock _ =>
      refine ⟨howned, h.vars, fun u => ?_⟩
      by_cases hu : u = t
      · subst hu
        simp only [Function.update_self]
        exact hA.lock hlock h.vars (h.pc u)
      · simp only [Function.update_of_ne hu]
        exact h.pc u

/-- Assertions that hold at the start hold in every reachable state. -/
theorem Holds.of_reachable {G : V → Prop} {A : T → Pc → V → Prop}
    {init : StatePred (State T Pc V L)} (hP : Annotated P held) (hA : Asserted P held G A)
    (hinit : ∀ s, init s → Holds held G A s) (h : Reachable init (Step P) s) :
    Holds held G A s := by
  suffices hrule : ∀ s, Reachable init (Step P) s → Holds held G A s from hrule s h
  refine init_invariant hinit ?_
  rintro s s' ⟨t, hstep⟩ hs
  exact hs.step hP hA hstep

/-! ## Progress -/

section Measure

variable [Fintype T]

/-- What the threads have left to do, and what the variables ask for. -/
def measure (weight : Pc → Nat) (extra : V → Nat) (s : State T Pc V L) : Nat :=
  (∑ t, weight (s.pc t)) + extra s.vars

/-- A step lowers the measure if it lowers the thread's own part of it. -/
theorem measure_lt {weight : Pc → Nat} {extra : V → Nat}
    (hacts : ∀ {pc v}, P.Acts t (s.pc t) s.vars pc v →
      weight pc + extra v < weight (s.pc t) + extra s.vars)
    (hlock : ∀ {l pc}, P.lock (s.pc t) l pc → weight pc < weight (s.pc t))
    (hstep : StepBy P t s s') : measure weight extra s' < measure weight extra s := by
  -- only the term of the thread that moves changes
  have hsum : ∀ pc, (∑ u, weight (Function.update s.pc t pc u)) + weight (s.pc t) =
      (∑ u, weight (s.pc u)) + weight pc := by
    intro pc
    have hupdate : ∀ u, weight (Function.update s.pc t pc u) =
        Function.update (fun u => weight (s.pc u)) t (weight pc) u := by
      intro u
      by_cases hu : u = t
      · subst hu
        simp
      · simp [hu]
    rw [Finset.sum_congr rfl fun u _ => hupdate u, Finset.sum_update_of_mem (Finset.mem_univ t),
      ← Finset.add_sum_erase Finset.univ (fun u => weight (s.pc u)) (Finset.mem_univ t),
      Finset.sdiff_singleton_eq_erase]
    omega
  cases hstep with
  | @run _ pc v hrun =>
      have hlower := hacts (Or.inl hrun)
      have heq := hsum pc
      simp only [measure]
      omega
  | @unlock _ pc v l hunlock =>
      have hlower := hacts (Or.inr ⟨l, hunlock⟩)
      have heq := hsum pc
      simp only [measure]
      omega
  | @lock _ pc l hlock' _ =>
      have hlower := hlock hlock'
      have heq := hsum pc
      simp only [measure]
      omega

end Measure

end Threads
