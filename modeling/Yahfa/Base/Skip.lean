import Mathlib.Data.List.Basic

/-!
# Reading a list with gaps

`skipAfter p` reads a list from the front and leaves out the element after every
element read that passes a test. If what is read is spelled out element by element,
with no text longer than it should be, the whole has the right length only if nothing
was left out and every text has the right length (`flatMap_sublist_eq`).
-/

namespace Skip

variable {α β : Type}

/-- The elements read, when the one after a hit is skipped. -/
def skipAfter (p : α → Bool) : List α → List α
  | [] => []
  | [a] => [a]
  | a :: b :: l => if p a then a :: skipAfter p l else a :: skipAfter p (b :: l)

variable {p : α → Bool} {l l₁ l₂ : List α} {f g : α → List β}

theorem skipAfter_sublist (p : α → Bool) (l : List α) : (skipAfter p l).Sublist l := by
  induction l using skipAfter.induct p with
  | case1 => exact List.Sublist.refl _
  | case2 a => exact List.Sublist.refl _
  | case3 a b l hit ih =>
      rw [skipAfter, if_pos hit]
      exact (ih.cons b).cons_cons a
  | case4 a b l miss ih =>
      rw [skipAfter, if_neg miss]
      exact ih.cons_cons a

/-- Nothing is skipped exactly when there are no hits before the last element. -/
theorem skipAfter_eq_self_iff : skipAfter p l = l ↔ ∀ a ∈ l.dropLast, p a = false := by
  induction l using skipAfter.induct p with
  | case1 => simp [skipAfter]
  | case2 a => simp [skipAfter]
  | case3 a b l hit ih =>
      rw [skipAfter, if_pos hit]
      constructor
      · intro h
        -- the list read is too short
        have hle := (skipAfter_sublist p l).length_le
        have hlength := congrArg List.length h
        simp only [List.length_cons] at hlength
        omega
      · intro h
        rw [h a (by simp)] at hit
        cases hit
  | case4 a b l miss ih =>
      rw [skipAfter, if_neg miss, List.cons.injEq, ih, List.dropLast_cons_cons]
      simp [miss]

theorem length_flatMap_le (hsub : l₁.Sublist l₂)
    (hle : ∀ a ∈ l₂, (f a).length ≤ (g a).length) :
    (l₁.flatMap f).length ≤ (l₂.flatMap g).length := by
  induction hsub with
  | slnil => exact Nat.le_refl _
  | cons a _ ih =>
      have hrest := ih fun b hb => hle b (List.mem_cons_of_mem a hb)
      rw [List.flatMap_cons, List.length_append]
      omega
  | cons_cons a _ ih =>
      have hrest := ih fun b hb => hle b (List.mem_cons_of_mem a hb)
      have ha := hle a List.mem_cons_self
      rw [List.flatMap_cons, List.flatMap_cons, List.length_append, List.length_append]
      omega

/-- A part of a list, spelled with shorter texts, has the length of the whole only if
it is the whole and no text is shorter. -/
theorem flatMap_sublist_eq (hsub : l₁.Sublist l₂)
    (hle : ∀ a ∈ l₂, (f a).length ≤ (g a).length) (hpos : ∀ a ∈ l₂, 0 < (g a).length)
    (hlength : (l₁.flatMap f).length = (l₂.flatMap g).length) :
    l₁ = l₂ ∧ ∀ a ∈ l₂, (f a).length = (g a).length := by
  induction hsub with
  | slnil => exact ⟨rfl, fun _ ha => nomatch ha⟩
  | cons a hsub ih =>
      -- `a` is left out
      have hrest := length_flatMap_le hsub fun b hb => hle b (List.mem_cons_of_mem a hb)
      have ha := hpos a List.mem_cons_self
      rw [List.flatMap_cons, List.length_append] at hlength
      omega
  | cons_cons a hsub ih =>
      have hle' := fun b hb => hle b (List.mem_cons_of_mem a hb)
      have hrest := length_flatMap_le hsub hle'
      have ha := hle a List.mem_cons_self
      rw [List.flatMap_cons, List.flatMap_cons, List.length_append, List.length_append] at hlength
      rcases ih hle' (fun b hb => hpos b (List.mem_cons_of_mem a hb)) (by omega) with ⟨rfl, hsame⟩
      refine ⟨rfl, ?_⟩
      intro b hb
      rcases List.mem_cons.mp hb with rfl | hb
      · omega
      · exact hsame b hb

end Skip
