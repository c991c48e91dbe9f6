import Mathlib.Data.List.Induction
import Mathlib.Data.List.Perm.Basic

/-!
# The last hit in a list

A loop that overwrites a variable whenever an element passes a test ends with the
last hit (`last_snoc`). What is taken from the last hit is the same for every order
of the list exactly when all hits agree on it (`map_last_perm_iff`).
-/

namespace LastHit

variable {α β : Type} (p : α → Bool)

/-- The last element that passes the test. -/
def last (l : List α) : Option α := l.reverse.find? p

@[simp] theorem last_nil : last p [] = none := rfl

theorem last_snoc (l : List α) (a : α) :
    last p (l ++ [a]) = if p a then some a else last p l := by
  unfold last
  rw [List.reverse_append, List.reverse_singleton, List.singleton_append]
  by_cases ha : p a = true
  · simp [ha]
  · simp [ha]

/-- All elements that pass the test agree on the value. -/
def Agree (f : α → β) (l : List α) : Prop :=
  ∀ a ∈ l, ∀ b ∈ l, p a = true → p b = true → f a = f b

variable {p} {l : List α} {a : α}

theorem last_eq_some (h : last p l = some a) : a ∈ l ∧ p a = true :=
  ⟨List.mem_reverse.mp (List.mem_of_find?_eq_some h), List.find?_some h⟩

theorem last_eq_none_iff : last p l = none ↔ ∀ a ∈ l, p a = false := by
  simp [last]

theorem exists_last_eq_some (ha : a ∈ l) (hp : p a = true) : ∃ b, last p l = some b := by
  cases hlast : last p l with
  | none =>
      rw [last_eq_none_iff.mp hlast a ha] at hp
      cases hp
  | some b => exact ⟨b, rfl⟩

/-- The last hit in a list of images, for a test that holds of an image exactly when
one holds of its origin. -/
theorem last_map {q : β → Bool} {f : α → β} (h : ∀ a, q (f a) = p a) (l : List α) :
    last q (l.map f) = (last p l).map f := by
  induction l using List.reverseRecOn with
  | nil => rfl
  | append_singleton l a ih =>
      rw [List.map_append, List.map_singleton, last_snoc, last_snoc, h, ih]
      by_cases ha : p a = true
      · simp [ha]
      · simp [ha]

/-- Any hit can be made the last one. -/
theorem exists_perm_last (ha : a ∈ l) (hp : p a = true) :
    ∃ l' : List α, l'.Perm l ∧ last p l' = some a := by
  rcases List.append_of_mem ha with ⟨pre, post, rfl⟩
  refine ⟨pre ++ post ++ [a], ?_, ?_⟩
  · exact (List.perm_append_singleton a (pre ++ post)).trans List.perm_middle.symm
  · rw [last_snoc, if_pos hp]

/-- What is taken from the last hit does not depend on the order of the list
exactly when all hits agree on it. -/
theorem map_last_perm_iff (f : α → β) :
    (∀ l' : List α, l'.Perm l → (last p l').map f = (last p l).map f) ↔ Agree p f l := by
  unfold Agree
  constructor
  · intro h a ha b hb hpa hpb
    rcases exists_perm_last ha hpa with ⟨la, hpermA, hlastA⟩
    rcases exists_perm_last hb hpb with ⟨lb, hpermB, hlastB⟩
    have heq : (last p la).map f = (last p lb).map f := (h la hpermA).trans (h lb hpermB).symm
    rw [hlastA, hlastB] at heq
    exact Option.some.inj heq
  · intro h l' hperm
    cases hlast : last p l with
    | none =>
        have hnone : last p l' = none := last_eq_none_iff.mpr fun a ha =>
          last_eq_none_iff.mp hlast a (hperm.mem_iff.mp ha)
        rw [hnone]
    | some b =>
        rcases last_eq_some hlast with ⟨hb, hpb⟩
        rcases exists_last_eq_some (hperm.mem_iff.mpr hb) hpb with ⟨a, hlast'⟩
        rcases last_eq_some hlast' with ⟨ha, hpa⟩
        rw [hlast']
        exact congrArg some (h a (hperm.mem_iff.mp ha) b hb hpa hpb)

end LastHit
