import Mathlib.Logic.Relation
import Mathlib.Data.Finset.Card
import Mathlib.Data.Finset.Filter

/-!
# Chains of a partial function

`next : α → Option α` sends each element to at most one successor; the chain
of `a` is `a`, `next a`, `next (next a)`, … . `Ends next a l` says that the
chain of `a` is finite and that `l` is its last element.

A chain is finite as soon as `next` is defined on finitely many elements only
and has no cycle (`exists_ends_of_acyclic`): each step leaves an element
behind that cannot be reached again.
-/

universe u

namespace Chain

variable {α : Type u} {next : α → Option α} {a b l : α}

/-- The chain of the first element is finite and its last element is the second. -/
inductive Ends (next : α → Option α) : α → α → Prop
  | done {a : α} (h : next a = none) : Ends next a a
  | step {a b l : α} (h : next a = some b) (hrest : Ends next b l) : Ends next a l

/-- One step of the chain, as a relation. -/
def Succ (next : α → Option α) (a b : α) : Prop := next a = some b

/-- No element is reached again from itself. -/
def Acyclic (next : α → Option α) : Prop := ∀ a, ¬ Relation.TransGen (Succ next) a a

namespace Ends

theorem of_next (h : Ends next a l) (hn : next a = some b) : Ends next b l := by
  cases h with
  | done h0 => simp [h0] at hn
  | step h0 hrest =>
      obtain rfl : _ = b := Option.some.inj (h0.symm.trans hn)
      exact hrest

theorem unique {l' : α} (h : Ends next a l) (h' : Ends next a l') : l = l' := by
  induction h with
  | done h0 =>
      cases h' with
      | done => rfl
      | step hn _ => simp [h0] at hn
  | step hn _ ih => exact ih (h'.of_next hn)

/-- An element of a cycle has no finite chain. -/
theorem not_of_cycle (hc : Relation.TransGen (Succ next) a a) : ¬ Ends next a l := by
  intro h
  induction h with
  | @done a h0 =>
      rcases Relation.TransGen.head'_iff.mp hc with ⟨b, hab, -⟩
      simp [Succ, h0] at hab
  | @step a b l hn _ ih =>
      -- the successor of an element of a cycle lies on the same cycle
      rcases Relation.TransGen.head'_iff.mp hc with ⟨b', hab', hback⟩
      obtain rfl : b = b' := Option.some.inj (hn.symm.trans hab')
      exact ih (Relation.TransGen.tail' hback hn)

end Ends

open Classical in
/-- A partial function that is defined on a finite set only and has no cycle
has finite chains. -/
theorem exists_ends_of_acyclic (S : Finset α) (hS : ∀ a b, next a = some b → a ∈ S)
    (hac : Acyclic next) (a : α) : ∃ l, Ends next a l := by
  -- induction on the number of elements of `S` that are still ahead
  induction hn : (S.filter fun x => Relation.ReflTransGen (Succ next) a x).card using
    Nat.strong_induction_on generalizing a with
  | _ n ih =>
      cases ha : next a with
      | none => exact ⟨a, .done ha⟩
      | some b =>
          have hsub : (S.filter fun x => Relation.ReflTransGen (Succ next) b x) ⊂
              (S.filter fun x => Relation.ReflTransGen (Succ next) a x) := by
            rw [Finset.ssubset_iff_of_subset]
            · refine ⟨a, by simp [hS a b ha, Relation.ReflTransGen.refl], ?_⟩
              intro hmem
              exact hac a (Relation.TransGen.head' ha (Finset.mem_filter.mp hmem).2)
            · intro x hx
              rw [Finset.mem_filter] at hx ⊢
              exact ⟨hx.1, Relation.ReflTransGen.head ha hx.2⟩
          rcases ih _ (hn ▸ Finset.card_lt_card hsub) b rfl with ⟨l, hl⟩
          exact ⟨l, .step ha hl⟩

/-- Finite chains have no cycle. -/
theorem acyclic_of_forall_ends (h : ∀ a, ∃ l, Ends next a l) : Acyclic next := by
  intro a hc
  rcases h a with ⟨l, hl⟩
  exact Ends.not_of_cycle hc hl

end Chain
