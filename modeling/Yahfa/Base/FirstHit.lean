import Mathlib.Data.List.Basic
import Mathlib.Data.List.Nodup
import Mathlib.Order.Bounds.Basic

/-!
# Searching a list, with a record of what the search did

A loop runs a test on one element after the other until the test says yes. Every
test leaves a record. The search returns the first hit, and the records of the
tests it ran, one after the other.

When the list is ordered by a relation, the first hit is the hit no other hit
comes before (`search_eq_some_iff`), and a property of whole records splits into
one condition for each element the search gets to (`holds_search_iff`).
`firstOfEach` keeps the first element of each kind.
-/

namespace FirstHit

variable {α β : Type} (test : α → Bool × List β)

/-- Run the test on the elements in turn, until it hits. -/
def search : List α → Option α × List β
  | [] => (none, [])
  | a :: rest =>
      if (test a).1 then (some a, (test a).2)
      else ((search rest).1, (test a).2 ++ (search rest).2)

/-! ## The hit -/

theorem search_fst (l : List α) : (search test l).1 = l.find? fun a => (test a).1 := by
  induction l with
  | nil => rfl
  | cons a rest ih =>
      unfold search
      by_cases ha : (test a).1 = true
      · simp [ha]
      · simp [ha, ih]

theorem search_eq_none_iff {l : List α} :
    (search test l).1 = none ↔ ∀ a ∈ l, (test a).1 = false := by
  simp [search_fst]

variable {r : α → α → Prop} [DecidableRel r]

/-- In an ordered list, the elements in front of an element are the ones below it. -/
theorem filter_eq_front (hasymm : ∀ a b, r a b → ¬ r b a)
    {pre post : List α} {a : α} (hl : (pre ++ a :: post).Pairwise r) :
    (pre ++ a :: post).filter (fun b => r b a) = pre := by
  rcases List.pairwise_append.mp hl with ⟨-, hpost, hpre⟩
  have hfront : pre.filter (fun b => r b a) = pre := by
    refine List.filter_eq_self.mpr ?_
    intro b hb
    simpa using hpre b hb a List.mem_cons_self
  have hrest : (a :: post).filter (fun b => r b a) = [] := by
    refine List.filter_eq_nil_iff.mpr ?_
    intro b hb
    rcases List.mem_cons.mp hb with rfl | hb
    · simpa using fun hb => hasymm b b hb hb
    · simpa using hasymm a b ((List.pairwise_cons.mp hpost).1 b hb)
  rw [List.filter_append, hfront, hrest, List.append_nil]

theorem mem_front_iff (hasymm : ∀ a b, r a b → ¬ r b a)
    {pre post : List α} {a : α} (hl : (pre ++ a :: post).Pairwise r) {b : α} :
    b ∈ pre ↔ b ∈ pre ++ a :: post ∧ r b a := by
  have hfront := filter_eq_front hasymm hl
  constructor
  · intro hb
    rw [← hfront] at hb
    simpa using List.mem_filter.mp hb
  · rintro ⟨hb, hba⟩
    rw [← hfront]
    exact List.mem_filter.mpr ⟨hb, by simpa using hba⟩

/-- The result is the hit no other hit comes before. -/
theorem search_eq_some_iff (hasymm : ∀ a b, r a b → ¬ r b a)
    {l : List α} (hl : l.Pairwise r) {a : α} :
    (search test l).1 = some a ↔
      (a ∈ l ∧ (test a).1 = true) ∧ ∀ b ∈ l, r b a → (test b).1 = false := by
  rw [search_fst, List.find?_eq_some_iff_append]
  constructor
  · rintro ⟨ha, pre, post, rfl, hpre⟩
    refine ⟨⟨by simp, ha⟩, ?_⟩
    intro b hb hba
    simpa using hpre b ((mem_front_iff hasymm hl).mpr ⟨hb, hba⟩)
  · rintro ⟨⟨hmem, ha⟩, hbefore⟩
    rcases List.append_of_mem hmem with ⟨pre, post, rfl⟩
    refine ⟨ha, pre, post, rfl, ?_⟩
    intro b hb
    rcases (mem_front_iff hasymm hl).mp hb with ⟨hmem, hba⟩
    simpa using hbefore b hmem hba

/-! ## The record -/

/-- Whatever is in the record has been put there by the test of an element. -/
theorem exists_of_mem_search {l : List α} {b : β} (h : b ∈ (search test l).2) :
    ∃ a ∈ l, b ∈ (test a).2 := by
  induction l with
  | nil => cases h
  | cons a rest ih =>
      unfold search at h
      split at h
      · exact ⟨a, List.mem_cons_self, h⟩
      · rcases List.mem_append.mp h with hfirst | hrest
        · exact ⟨a, List.mem_cons_self, hfirst⟩
        · rcases ih hrest with ⟨c, hc, hb⟩
          exact ⟨c, List.mem_cons_of_mem _ hc, hb⟩

/-- A property of a record, given the record of what was done before it, that can
be checked piece by piece. -/
structure Piecewise (P : List β → List β → Prop) : Prop where
  nil : ∀ earlier, P earlier []
  append : ∀ earlier t u, P earlier (t ++ u) ↔ P earlier t ∧ P (earlier ++ t) u

variable {test} {P : List β → List β → Prop}

/-- The record of the whole search has the property exactly when the record of
every test the search gets to has it, after the records of the elements before. -/
theorem holds_search_iff (hP : Piecewise P) (l : List α) (earlier : List β) :
    P earlier (search test l).2 ↔
      ∀ pre a post, l = pre ++ a :: post → (∀ b ∈ pre, (test b).1 = false) →
        P (earlier ++ pre.flatMap fun b => (test b).2) (test a).2 := by
  induction l generalizing earlier with
  | nil =>
      constructor
      · intro _ pre a post h
        simp at h
      · intro _
        exact hP.nil earlier
  | cons a rest ih =>
      -- what has to hold at the head, and what in the rest after a miss
      have hhead : (∀ pre b post, a :: rest = pre ++ b :: post → (∀ c ∈ pre, (test c).1 = false) →
          P (earlier ++ pre.flatMap fun b => (test b).2) (test b).2) ↔
          P earlier (test a).2 ∧ ((test a).1 = false →
            ∀ pre b post, rest = pre ++ b :: post → (∀ c ∈ pre, (test c).1 = false) →
              P (earlier ++ (test a).2 ++ pre.flatMap fun b => (test b).2) (test b).2) := by
        constructor
        · intro h
          refine ⟨by simpa using h [] a rest rfl (by simp), ?_⟩
          intro hmiss pre b post hrest hpre
          simpa using h (a :: pre) b post (by simp [hrest]) (by simpa [hmiss] using hpre)
        · rintro ⟨hfirst, hlater⟩ pre b post hsplit hpre
          cases pre with
          | nil =>
              obtain ⟨rfl, -⟩ : a = b ∧ rest = post := by simpa using hsplit
              simpa using hfirst
          | cons c pre =>
              obtain ⟨rfl, hrest⟩ : a = c ∧ rest = pre ++ b :: post := by simpa using hsplit
              have hmiss : (test a).1 = false := hpre a List.mem_cons_self
              simpa using hlater hmiss pre b post hrest fun x hx => hpre x (List.mem_cons_of_mem _ hx)
      rw [hhead]
      unfold search
      by_cases ha : (test a).1 = true
      · -- a hit ends the search
        simp [ha]
      · have hmiss : (test a).1 = false := by simpa using ha
        simp only [ha, if_false, hP.append, ih, forall_true_left, Bool.false_eq_true]

/-- The same for an ordered list. -/
theorem holds_search_iff_of_pairwise (hP : Piecewise P)
    (hasymm : ∀ a b, r a b → ¬ r b a) {l : List α} (hl : l.Pairwise r) (earlier : List β) :
    P earlier (search test l).2 ↔
      ∀ a ∈ l, (∀ b ∈ l, r b a → (test b).1 = false) →
        P (earlier ++ (l.filter fun b => r b a).flatMap fun b => (test b).2) (test a).2 := by
  rw [holds_search_iff hP]
  constructor
  · intro h a hmem hmiss
    rcases List.append_of_mem hmem with ⟨pre, post, rfl⟩
    rw [filter_eq_front hasymm hl]
    refine h pre a post rfl ?_
    intro b hb
    rcases (mem_front_iff hasymm hl).mp hb with ⟨hb, hba⟩
    exact hmiss b hb hba
  · rintro h pre a post rfl hmiss
    have ha := h a (by simp) fun b hb hba =>
      hmiss b ((mem_front_iff hasymm hl).mpr ⟨hb, hba⟩)
    rwa [filter_eq_front hasymm hl] at ha

/-! ## The first element of each kind -/

section FirstOfEach

variable {κ : Type} [DecidableEq κ] {f : α → κ} {a : α} {l : List α}

/-- Without the elements that come after another one of their kind. -/
def firstOfEach (f : α → κ) : List α → List α
  | [] => []
  | a :: l => a :: (firstOfEach f l).filter fun b => f b ≠ f a

theorem firstOfEach_nodup (f : α → κ) (l : List α) : ((firstOfEach f l).map f).Nodup := by
  induction l with
  | nil => exact List.nodup_nil
  | cons a l ih =>
      rw [firstOfEach, List.map_cons, List.nodup_cons]
      refine ⟨?_, ih.sublist (List.filter_sublist.map f)⟩
      intro hmem
      rcases List.mem_map.mp hmem with ⟨b, hb, heq⟩
      exact of_decide_eq_true (List.mem_filter.mp hb).2 heq

/-- Where no two elements are of one kind, the first of a kind is the one. -/
theorem find?_eq_some_iff_of_nodup (hnodup : (l.map f).Nodup) {k : κ} :
    l.find? (fun b => f b = k) = some a ↔ a ∈ l ∧ f a = k := by
  constructor
  · intro hfind
    have hkey := List.find?_some hfind
    exact ⟨List.mem_of_find?_eq_some hfind, of_decide_eq_true hkey⟩
  · rintro ⟨hmem, rfl⟩
    cases hfind : l.find? fun b => f b = f a with
    | none => exact absurd (decide_eq_true rfl) (List.find?_eq_none.mp hfind a hmem)
    | some b =>
        have hkey := List.find?_some hfind
        rw [decide_eq_true_eq] at hkey
        rw [List.inj_on_of_nodup_map hnodup (List.mem_of_find?_eq_some hfind) hmem hkey]

end FirstOfEach

end FirstHit
