import Yahfa.Base.Loop

/-!
# Iterators

An iterator gives one item after another until it has no more. What it reads its
items from is a state that may change while it is in use; `Yields good` says that it
yields certain items as long as the state stays `good`, and `run_forEach` is the
rule for a loop that draws from it: the loop is the same recursion over the items.
-/

namespace Iter

/-- What a step comes to: a result, a failure it reports, or a behaviour that the
language does not define. -/
inductive Outcome (α : Type) where
  | ok (a : α)
  | failed
  | undefined
deriving DecidableEq, Repr

namespace Outcome

variable {α β : Type}

/-- The next step, after a result. -/
def bind (x : Outcome α) (f : α → Outcome β) : Outcome β :=
  match x with
  | .ok a => f a
  | .failed => .failed
  | .undefined => .undefined

instance : Monad Outcome where
  pure := .ok
  bind := bind

@[simp] theorem pure_eq (a : α) : (pure a : Outcome α) = .ok a := rfl

@[simp] theorem ok_bind (a : α) (f : α → Outcome β) : (Outcome.ok a >>= f) = f a := rfl

@[simp] theorem failed_bind (f : α → Outcome β) : (Outcome.failed >>= f) = .failed := rfl

@[simp] theorem undefined_bind (f : α → Outcome β) : (Outcome.undefined >>= f) = .undefined := rfl

end Outcome

open Loop

variable {σ ι α ρ : Type} {next : σ → ι → Outcome (α × ι)} {good : σ → Prop} {it it' : ι}
  {l : List α}

/-- In every good state the iterator gives these items and then no more. -/
inductive Yields (next : σ → ι → Outcome (α × ι)) (good : σ → Prop) : ι → List α → Prop
  | done {it : ι} (h : ∀ s, good s → next s it = .failed) : Yields next good it []
  | item {it it' : ι} {a : α} {l : List α} (h : ∀ s, good s → next s it = .ok (a, it'))
      (hrest : Yields next good it' l) : Yields next good it (a :: l)

/-- An iterator that does the same next gives the same. -/
theorem Yields.of_next_eq (h : Yields next good it' l) (heq : ∀ s, good s → next s it = next s it') :
    Yields next good it l := by
  cases h with
  | done hnone => exact .done fun s hs => (heq s hs).trans (hnone s hs)
  | item hitem hrest => exact .item (fun s hs => (heq s hs).trans (hitem s hs)) hrest

/-- The same iterator, reading from a part of a larger state. -/
theorem Yields.comap {σ' : Type} {good' : σ' → Prop} {part : σ' → σ} (h : Yields next good it l)
    (hgood : ∀ s, good' s → good (part s)) : Yields (fun s => next (part s)) good' it l := by
  induction h with
  | done hnone => exact .done fun s hs => hnone (part s) (hgood s hs)
  | item hitem _ ih => exact .item (fun s hs => hitem (part s) (hgood s hs)) ih

/-! ## All items -/

/-- The items an iterator gives in one state. -/
def drain (next : ι → Outcome (α × ι)) : Nat → ι → Option (List α)
  | 0, _ => none
  | fuel + 1, it =>
      match next it with
      | .ok (a, it') => (drain next fuel it').map (a :: ·)
      | .failed => some []
      | .undefined => none

theorem Yields.drain_eq (h : Yields next good it l) {s : σ} (hs : good s) :
    Returns (fun fuel => drain (next s) fuel it) l := by
  induction h with
  | done hnone =>
      refine ⟨1, fun fuel hfuel => ?_⟩
      rcases Nat.exists_eq_add_of_le' hfuel with ⟨fuel, rfl⟩
      simp only [drain, hnone s hs]
  | @item it it' a l hitem _ ih =>
      rcases ih with ⟨least, hleast⟩
      refine ⟨least + 1, fun fuel hfuel => ?_⟩
      rcases Nat.exists_eq_add_of_le' (Nat.le_of_add_left_le hfuel) with ⟨fuel, rfl⟩
      have hrest : drain (next s) fuel it' = some l := hleast fuel (Nat.le_of_succ_le_succ hfuel)
      simp only [drain, hitem s hs, hrest, Option.map_some]

section Measure

variable {next : ι → Outcome (α × ι)}

/-- Two iterators that agree as long as they are used. -/
theorem drain_congr {next' : ι → Outcome (α × ι)} {P : ι → Prop} (heq : ∀ it, P it → next it = next' it)
    (hkeep : ∀ it a it', P it → next it = .ok (a, it') → P it') (hit : P it) (fuel : Nat) :
    drain next fuel it = drain next' fuel it := by
  induction fuel generalizing it with
  | zero => rfl
  | succ fuel ih =>
      rw [drain, drain, ← heq it hit]
      cases hnext : next it with
      | ok r => exact congrArg (Option.map (r.1 :: ·)) (ih (hkeep it r.1 r.2 hit hnext))
      | failed => rfl
      | undefined => rfl

/-- A number that every item lowers bounds the items, and the fuel it takes. -/
theorem drain_of_measure {m : ι → Nat} (hlower : ∀ it a it', next it = .ok (a, it') → m it' < m it)
    {fuel : Nat} (hfuel : m it < fuel) :
    drain next fuel it = drain next (m it + 1) it ∧
      ∀ l, drain next fuel it = some l → l.length ≤ m it := by
  induction hm : m it using Nat.strongRecOn generalizing it fuel with
  | ind n ih =>
      rcases Nat.exists_eq_add_of_lt hfuel with ⟨k, rfl⟩
      rw [drain, drain]
      cases hnext : next it with
      | ok r =>
          have hlt : m r.2 < m it := hlower it r.1 r.2 hnext
          have hlong := @ih (m r.2) (hm ▸ hlt) r.2 (m it + k) (by omega) rfl
          have hshort := @ih (m r.2) (hm ▸ hlt) r.2 n (by omega) rfl
          refine ⟨?_, fun l hl => ?_⟩
          · simp only [hlong.1, hshort.1]
          · rcases Option.map_eq_some_iff.mp hl with ⟨l', hl', rfl⟩
            have hle := hlong.2 l' hl'
            rw [List.length_cons]
            omega
      | failed =>
          refine ⟨rfl, fun l hl => ?_⟩
          obtain rfl : [] = l := Option.some.inj hl
          exact Nat.zero_le n
      | undefined =>
          refine ⟨rfl, fun l hl => ?_⟩
          cases hl

end Measure

/-! ## Loops over the items -/

/-- The loop that draws items until there are no more, or one ends it. -/
def forEach (next : σ → ι → Outcome (α × ι)) (body : α → σ → Round σ ρ) (finish : σ → ρ) :
    ι × σ → Option (Round (ι × σ) ρ)
  | (it, s) =>
      match next s it with
      | .undefined => none
      | .failed => some (.exit (finish s))
      | .ok (a, it') =>
          match body a s with
          | .exit r => some (.exit r)
          | .again s' => some (.again (it', s'))

/-- The same loop over a list. -/
def forEachList (body : α → σ → Round σ ρ) (finish : σ → ρ) : List α → σ → ρ
  | [], s => finish s
  | a :: l, s =>
      match body a s with
      | .exit r => r
      | .again s' => forEachList body finish l s'

/-- What every item keeps, the loop keeps. -/
theorem forEachList_meets {body : α → σ → Round σ ρ} (finish : σ → ρ) {post : ρ → Prop}
    (hkeep : ∀ a ∈ l, ∀ s, good s → (body a s).Meets good post)
    (hfinish : ∀ s, good s → post (finish s)) {s : σ} (hs : good s) :
    post (forEachList body finish l s) := by
  induction l generalizing s with
  | nil => exact hfinish s hs
  | cons a l ih =>
      have hmeets := hkeep a List.mem_cons_self s hs
      rw [forEachList]
      cases hbody : body a s with
      | exit r =>
          rw [hbody] at hmeets
          exact hmeets
      | again s' =>
          rw [hbody] at hmeets
          exact ih (fun b hb => hkeep b (List.mem_cons_of_mem a hb)) hmeets

/-- A loop that keeps the state good goes over the items. -/
theorem run_forEach {body : α → σ → Round σ ρ} (finish : σ → ρ) {post : ρ → Prop}
    (h : Yields next good it l) (hkeep : ∀ a ∈ l, ∀ s, good s → (body a s).Meets good post) {s : σ}
    (hs : good s) :
    Returns (fun fuel => run (forEach next body finish) fuel (it, s))
      (forEachList body finish l s) := by
  induction h generalizing s with
  | done hnone =>
      refine ⟨1, fun fuel hfuel => ?_⟩
      rcases Nat.exists_eq_add_of_le' hfuel with ⟨fuel, rfl⟩
      simp only [run, forEach, hnone s hs, forEachList]
  | @item it it' a l hitem _ ih =>
      have hround : forEach next body finish (it, s) =
          match body a s with
          | .exit r => some (.exit r)
          | .again s' => some (.again (it', s')) := by
        simp only [forEach, hitem s hs]
      cases hbody : body a s with
      | exit r =>
          -- the item ends the loop
          refine ⟨1, fun fuel hfuel => ?_⟩
          rcases Nat.exists_eq_add_of_le' hfuel with ⟨fuel, rfl⟩
          simp only [run, hround, hbody, forEachList]
      | again s' =>
          have hs' : good s' := by
            have hmeets := hkeep a List.mem_cons_self s hs
            rwa [hbody] at hmeets
          rcases ih (fun b hb => hkeep b (List.mem_cons_of_mem a hb)) hs' with ⟨least, hleast⟩
          refine ⟨least + 1, fun fuel hfuel => ?_⟩
          rcases Nat.exists_eq_add_of_le' (Nat.le_of_add_left_le hfuel) with ⟨fuel, rfl⟩
          simp only [run, hround, hbody, forEachList]
          exact hleast fuel (Nat.le_of_succ_le_succ hfuel)

end Iter
