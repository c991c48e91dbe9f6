import Yahfa.Base.Loop
import Mathlib.Data.List.Basic
import Mathlib.Data.List.Range

/-!
# Looking names up in chained tables

The two layouts of hash tables over an array of names. In the one, a bucket holds
the first index of a chain and every index the next one, 0 at the end; in the other
the indices of a bucket stand one behind the other, and a mark ends them.

A table may hold what it likes; `Chained` and `Grouped` say when it is one for its
names, and then the walks find a name whenever it is there (`chainRound_finds`,
`groupRound_finds`).
-/

namespace HashTable

open Loop

/-- The result of looking for a name among some indices. -/
def Finds {κ : Type} (name : Nat → κ) (among : Nat → Prop) (k : κ) : Option Nat → Prop
  | some i => among i ∧ name i = k
  | none => ∀ i, among i → name i ≠ k

section Find

variable {κ : Type} {name : Nat → κ} {among : Nat → Prop} {k : κ} {hit : Nat → Bool}

/-- The first hit of a list of indices that has all with the name. -/
theorem finds_find? {l : List Nat} (hsound : ∀ i ∈ l, hit i = true → among i ∧ name i = k)
    (hcomplete : ∀ i, among i → name i = k → i ∈ l ∧ hit i = true) :
    Finds name among k (l.find? hit) := by
  cases hfind : l.find? hit with
  | some i => exact hsound i (List.mem_of_find?_eq_some hfind) (List.find?_some hfind)
  | none =>
      intro i hi hname
      rcases hcomplete i hi hname with ⟨hmem, hhit⟩
      exact absurd hhit (List.find?_eq_none.mp hfind i hmem)

/-- When no two indices have one name, there is only one result. -/
theorem Finds.unique {among' : Nat → Prop} {r r' : Option Nat} (h : Finds name among k r)
    (h' : Finds name among' k r') (hsame : ∀ i, name i = k → (among i ↔ among' i))
    (hinj : ∀ i j, among i → among j → name i = name j → i = j) : r = r' := by
  cases r with
  | some i =>
      cases r' with
      | some j =>
          have hj := (hsame j h'.2).mpr h'.1
          rw [hinj i j h.1 hj (h.2.trans h'.2.symm)]
      | none => exact absurd h.2 (h' i ((hsame i h.2).mp h.1))
  | none =>
      cases r' with
      | some j => exact absurd h'.2 (h j ((hsame j h'.2).mpr h'.1))
      | none => rfl

end Find

/-! ## Chains -/

section Chain

/-- One round of the walk along a chain. -/
def chainRound (next : Nat → Nat) (hit : Nat → Bool) (i : Nat) : Option (Round Nat (Option Nat)) :=
  if i = 0 then some (.exit none)
  else if hit i then some (.exit (some i))
  else some (.again (next i))

variable {next : Nat → Nat} {hit : Nat → Bool} {i : Nat} {l : List Nat}

/-- The chain that starts at an index. -/
def Linked (next : Nat → Nat) : Nat → List Nat → Prop
  | i, [] => i = 0
  | i, j :: l => i = j ∧ j ≠ 0 ∧ Linked next (next j) l

/-- The walk comes to the first hit of the chain. -/
theorem run_chainRound (h : Linked next i l) :
    Returns (fun fuel => run (chainRound next hit) fuel i) (l.find? hit) := by
  induction l generalizing i with
  | nil =>
      refine ⟨1, fun fuel hfuel => ?_⟩
      rcases Nat.exists_eq_add_of_le' hfuel with ⟨fuel, rfl⟩
      obtain rfl : i = 0 := h
      rfl
  | cons j l ih =>
      rcases h with ⟨rfl, hne, hl⟩
      rcases ih hl with ⟨least, hleast⟩
      refine ⟨least + 1, fun fuel hfuel => ?_⟩
      rcases Nat.exists_eq_add_of_le' (Nat.le_of_add_left_le hfuel) with ⟨fuel, rfl⟩
      have hrest : run (chainRound next hit) fuel (next i) = some (l.find? hit) :=
        hleast fuel (Nat.le_of_succ_le_succ hfuel)
      simp only [run, chainRound, if_neg hne, List.find?_cons]
      cases hit i with
      | true => rfl
      | false => simpa using hrest

variable {κ : Type} {name : Nat → κ} {bucketOf : κ → Nat} {count : Nat} {bucket : Nat → Nat} {k : κ}

/-- Every index but 0 is on the chain of its name's bucket. -/
def Chained (name : Nat → κ) (bucketOf : κ → Nat) (count : Nat) (bucket next : Nat → Nat) : Prop :=
  ∀ k, ∃ l, Linked next (bucket (bucketOf k)) l ∧ (∀ i ∈ l, i < count) ∧
    ∀ i, 0 < i → i < count → bucketOf (name i) = bucketOf k → i ∈ l

theorem Linked.ne_zero (h : Linked next i l) : ∀ j ∈ l, j ≠ 0 := by
  induction l generalizing i with
  | nil => simp
  | cons a l ih =>
      rcases h with ⟨-, hne, hl⟩
      rintro j (_ | ⟨_, hj⟩)
      · exact hne
      · exact ih hl j hj

/-- The walk along the chain of a name finds it, if it is there. -/
theorem chainRound_finds (h : Chained name bucketOf count bucket next)
    (hhit : ∀ i < count, hit i = true ↔ name i = k) :
    ∃ r, Returns (fun fuel => run (chainRound next hit) fuel (bucket (bucketOf k))) r ∧
      Finds name (fun i => 0 < i ∧ i < count) k r := by
  rcases h k with ⟨l, hlinked, hlt, hall⟩
  refine ⟨_, run_chainRound hlinked, finds_find? (fun i hi hhit' => ?_) fun i hi hname => ?_⟩
  · exact ⟨⟨Nat.pos_of_ne_zero (hlinked.ne_zero i hi), hlt i hi⟩, (hhit i (hlt i hi)).mp hhit'⟩
  · exact ⟨hall i hi.1 hi.2 (by rw [hname]), (hhit i hi.2).mpr hname⟩

end Chain

/-! ## Groups -/

section Group

/-- One round of the walk through a group. -/
def groupRound (hit last : Nat → Bool) (i : Nat) : Option (Round Nat (Option Nat)) :=
  if hit i then some (.exit (some i))
  else if last i then some (.exit none)
  else some (.again (i + 1))

variable {hit last : Nat → Bool} {i : Nat}

/-- The walk comes to the first hit up to the mark. -/
theorem run_groupRound {m : Nat} (hlast : last (i + m) = true)
    (hnot : ∀ j < m, last (i + j) = false) :
    Returns (fun fuel => run (groupRound hit last) fuel i) ((List.range' i (m + 1)).find? hit) := by
  induction m generalizing i with
  | zero =>
      refine ⟨1, fun fuel hfuel => ?_⟩
      rcases Nat.exists_eq_add_of_le' hfuel with ⟨fuel, rfl⟩
      have hi : last i = true := hlast
      rw [Nat.zero_add, List.range'_one]
      simp only [run, groupRound, hi, if_true, List.find?_cons, List.find?_nil]
      cases hit i <;> rfl
  | succ m ih =>
      have hi : last i = false := hnot 0 (Nat.succ_pos m)
      have hnext := ih (i := i + 1) (by rw [← hlast]; congr 1; omega) fun j hj => by
        rw [← hnot (j + 1) (Nat.succ_lt_succ hj)]
        congr 1
        omega
      rcases hnext with ⟨least, hleast⟩
      refine ⟨least + 1, fun fuel hfuel => ?_⟩
      rcases Nat.exists_eq_add_of_le' (Nat.le_of_add_left_le hfuel) with ⟨fuel, rfl⟩
      have hrest : run (groupRound hit last) fuel (i + 1) =
          some ((List.range' (i + 1) (m + 1)).find? hit) :=
        hleast fuel (Nat.le_of_succ_le_succ hfuel)
      rw [List.range'_succ]
      simp only [run, groupRound, hi, List.find?_cons]
      cases hit i with
      | true => rfl
      | false => simpa using hrest

variable {κ : Type} {name : Nat → κ} {bucketOf : κ → Nat} {start count : Nat} {bucket : Nat → Nat}
  {k : κ}

/-- The indices from `start` on are in groups: a bucket without names holds an index
in front of them, and any other one the first of its group. -/
def Grouped (name : Nat → κ) (bucketOf : κ → Nat) (start count : Nat) (bucket : Nat → Nat)
    (last : Nat → Bool) : Prop :=
  ∀ k, (bucket (bucketOf k) < start ∧
      ∀ i, start ≤ i → i < count → bucketOf (name i) ≠ bucketOf k) ∨
    (start ≤ bucket (bucketOf k) ∧ ∃ m, bucket (bucketOf k) + m < count ∧
      last (bucket (bucketOf k) + m) = true ∧
      (∀ j < m, last (bucket (bucketOf k) + j) = false) ∧
      ∀ i, start ≤ i → i < count → bucketOf (name i) = bucketOf k →
        bucket (bucketOf k) ≤ i ∧ i ≤ bucket (bucketOf k) + m)

/-- A name whose bucket is empty is not there. -/
theorem Grouped.finds_none (h : Grouped name bucketOf start count bucket last)
    (hlt : bucket (bucketOf k) < start) :
    Finds name (fun i => start ≤ i ∧ i < count) k none := by
  rcases h k with ⟨-, hnone⟩ | ⟨hle, -⟩
  · rintro i ⟨hstart, hcount⟩ hname
    exact hnone i hstart hcount (by rw [hname])
  · exact absurd hlt (not_lt.mpr hle)

/-- The walk through the group of a name finds it, if it is there. -/
theorem groupRound_finds (h : Grouped name bucketOf start count bucket last)
    (hle : start ≤ bucket (bucketOf k))
    (hhit : ∀ i, start ≤ i → i < count → (hit i = true ↔ name i = k)) :
    ∃ r, Returns (fun fuel => run (groupRound hit last) fuel (bucket (bucketOf k))) r ∧
      Finds name (fun i => start ≤ i ∧ i < count) k r := by
  rcases h k with ⟨hlt, -⟩ | ⟨-, m, hm, hlast, hnot, hall⟩
  · exact absurd hlt (not_lt.mpr hle)
  refine ⟨_, run_groupRound hlast hnot, finds_find? (fun i hi hhit' => ?_) fun i hi hname => ?_⟩
  · rw [List.mem_range'_1] at hi
    have hrange : start ≤ i ∧ i < count := by omega
    exact ⟨hrange, (hhit i hrange.1 hrange.2).mp hhit'⟩
  · rcases hall i hi.1 hi.2 (by rw [hname]) with ⟨hfirst, hend⟩
    exact ⟨List.mem_range'_1.mpr (by omega), (hhit i hi.1 hi.2).mpr hname⟩

end Group

end HashTable
