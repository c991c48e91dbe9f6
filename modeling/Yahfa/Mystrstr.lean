import Yahfa.Common
import Yahfa.Base.CString
import Yahfa.Base.Loop
import Mathlib.Order.Bounds.Basic

/-!
# `hook_main.c`: searching a string

`mystrstr` is a `strstr` of its own, two nested loops over memory. Both are loops in
the sense of `Loop`, with the variables of the source and the bytes they have read
as their state. A string lies in one piece, so its addresses do not wrap around.

The invariants follow the offset of the outer loop in the one string
(`SearchInv`) and, for a fixed one, the offset of the inner loop in the other
(`MatchInv`).
-/

namespace Yahfa

open Bytes

/-! ## The functions -/

/-- The address of a byte read through `cp` or `s1`, or through `str2` or `s2`. -/
inductive Deref where
  | str1 (addr : Nat)
  | str2 (addr : Nat)
deriving DecidableEq, Repr

/-- The value of a `char`, which is signed on x86 and unsigned on ARM. -/
def charValue (abi : Abi) (c : UInt8) : Int :=
  match abi with
  | .i386 => c.toInt8.toInt
  | .x86_64 => c.toInt8.toInt
  | .arm => c.toNat
  | .aarch64 => c.toNat

/-- The state of the inner loop. -/
structure MatchState where
  s1 : Nat
  s2 : Nat
  reads : List Deref
deriving DecidableEq, Repr

/-- The state of the outer loop. -/
structure SearchState where
  cp : Nat
  reads : List Deref
deriving DecidableEq, Repr

section Functions

variable (abi : Abi) (mem : Memory)

/-- A round of `while (*s2 && !(*s1 - *s2)) s1++, s2++;`. -/
def matchRound (v : MatchState) : Option (Loop.Round MatchState MatchState) :=
  if charValue abi (mem v.s2) = 0 then
    some (.exit { v with reads := v.reads ++ [.str2 v.s2] })
  else
    let reads := v.reads ++ [.str2 v.s2, .str1 v.s1, .str2 v.s2]
    if charValue abi (mem v.s1) - charValue abi (mem v.s2) ≠ 0 then
      some (.exit { v with reads := reads })
    else some (.again ⟨v.s1 + 1, v.s2 + 1, reads⟩)

/-- A round of `while (*cp)`. -/
def searchRound (fuel str2 : Nat) (v : SearchState) :
    Option (Loop.Round SearchState (Nat × List Deref)) :=
  let reads := v.reads ++ [.str1 v.cp]
  if charValue abi (mem v.cp) = 0 then some (.exit (NULL, reads))
  else
    match Loop.run (matchRound abi mem) fuel ⟨v.cp, str2, reads⟩ with
    | none => none
    | some w =>
        let reads := w.reads ++ [.str2 w.s2]
        if charValue abi (mem w.s2) = 0 then some (.exit (v.cp, reads))
        else some (.again ⟨v.cp + 1, reads⟩)

/-- `mystrstr`, and what it reads. No loop goes round more often than `fuel`. -/
def mystrstr (fuel str1 str2 : Nat) : Option (Nat × List Deref) :=
  if charValue abi (mem str2) = 0 then some (str1, [.str2 str2])
  else Loop.run (searchRound abi mem fuel str2) fuel ⟨str1, [.str2 str2]⟩

end Functions

/-! ## Characters -/

variable {abi : Abi}

theorem charValue_inj {c d : UInt8} : charValue abi c = charValue abi d ↔ c = d := by
  have hsigned : c.toInt8.toInt = d.toInt8.toInt ↔ c = d := by
    rw [Int8.toInt_inj]
    exact ⟨Int8.ofUInt8.inj, congrArg UInt8.toInt8⟩
  have hunsigned : (c.toNat : Int) = d.toNat ↔ c = d := by
    rw [Int.natCast_inj, UInt8.toNat_inj]
  cases abi with
  | i386 => exact hsigned
  | x86_64 => exact hsigned
  | arm => exact hunsigned
  | aarch64 => exact hunsigned

@[simp] theorem charValue_eq_zero_iff {c : UInt8} : charValue abi c = 0 ↔ c = 0 := by
  have hzero : charValue abi 0 = 0 := by cases abi <;> rfl
  rw [← hzero, charValue_inj]

@[simp] theorem charValue_sub_eq_zero_iff {c d : UInt8} :
    charValue abi c - charValue abi d = 0 ↔ c = d := by
  rw [Int.sub_eq_zero, charValue_inj]

/-! ## Fuel -/

theorem searchRound_mono {mem : Memory} {fuel fuel' str2 : Nat} (hfuel : fuel ≤ fuel')
    (v : SearchState) (x : Loop.Round SearchState (Nat × List Deref))
    (h : searchRound abi mem fuel str2 v = some x) :
    searchRound abi mem fuel' str2 v = some x := by
  unfold searchRound at h ⊢
  dsimp only at h ⊢
  split
  · next hend => rwa [if_pos hend] at h
  · next hend =>
    rw [if_neg hend] at h
    cases hw : Loop.run (matchRound abi mem) fuel ⟨v.cp, str2, v.reads ++ [.str1 v.cp]⟩ with
    | none =>
        rw [hw] at h
        cases h
    | some w =>
        rw [hw] at h
        rwa [Loop.run_mono (fun _ _ hx => hx) hfuel hw]

/-- Once there is a result, more fuel does not change it. -/
theorem mystrstr_mono {mem : Memory} {fuel fuel' str1 str2 : Nat} {r : Nat × List Deref}
    (hfuel : fuel ≤ fuel') (h : mystrstr abi mem fuel str1 str2 = some r) :
    mystrstr abi mem fuel' str1 str2 = some r := by
  unfold mystrstr at h ⊢
  split
  · next hempty => rwa [if_pos hempty] at h
  · next hempty =>
    rw [if_neg hempty] at h
    exact Loop.run_mono (searchRound_mono hfuel) hfuel h

/-! ## What the loops keep -/

section Loops

variable {mem : Memory} (s t : CString mem)

/-- The read stays in the string it goes through. -/
def Deref.Inside : Deref → Prop
  | .str1 addr => s.span.Contains addr
  | .str2 addr => t.span.Contains addr

/-- In the inner loop, from offset `k` on the bytes have agreed so far. -/
def MatchInv (k : Nat) (v : MatchState) : Prop :=
  ∃ i ≤ t.text.length, k + i ≤ s.text.length ∧ v.s1 = s.addr + k + i ∧ v.s2 = t.addr + i ∧
    (∀ j < i, mem (s.addr + k + j) = mem (t.addr + j)) ∧ ∀ r ∈ v.reads, r.Inside s t

/-- After the inner loop, `s2` is at the terminator exactly when the string stands at
offset `k` of the other one. -/
def Matched (k : Nat) (v : MatchState) : Prop :=
  (Deref.str2 v.s2).Inside s t ∧ (mem v.s2 = 0 ↔ t.text <+: s.text.drop k) ∧
    ∀ r ∈ v.reads, r.Inside s t

/-- In the outer loop, the string does not stand at an offset before `cp`. -/
def SearchInv (v : SearchState) : Prop :=
  ∃ k ≤ s.text.length, v.cp = s.addr + k ∧ (∀ j < k, ¬ t.text <+: s.text.drop j) ∧
    ∀ r ∈ v.reads, r.Inside s t

/-- The pointer is to the first occurrence, or null if there is none. -/
def Found (p : Nat) : Prop :=
  (∃ k, p = s.addr + k ∧ IsLeast {k | t.text <+: s.text.drop k} k) ∨
    p = NULL ∧ ¬ t.text <:+: s.text

variable {s t} {k fuel : Nat}

theorem Found.eq_add_iff {p : Nat} (h : Found s t p) :
    p = s.addr + k ↔ IsLeast {k | t.text <+: s.text.drop k} k := by
  rcases h with ⟨j, rfl, hleast⟩ | ⟨rfl, hnone⟩
  · rw [Nat.add_left_cancel_iff]
    constructor
    · rintro rfl
      exact hleast
    · exact hleast.unique
  · refine iff_of_false ?_ fun hleast => hnone ?_
    · intro hnull
      exact s.addr_ne_zero (Nat.add_eq_zero_iff.mp hnull.symm).1
    · exact hleast.1.isInfix.trans (List.drop_suffix k s.text).isInfix

theorem Found.eq_null_iff {p : Nat} (h : Found s t p) : p = NULL ↔ ¬ t.text <:+: s.text := by
  rcases h with ⟨j, rfl, hleast⟩ | ⟨rfl, hnone⟩
  · refine iff_of_false ?_ (not_not.mpr ?_)
    · intro hnull
      exact s.addr_ne_zero (Nat.add_eq_zero_iff.mp hnull).1
    · exact hleast.1.isInfix.trans (List.drop_suffix j s.text).isInfix
  · exact iff_of_true rfl hnone

theorem inside_append {rs rs' : List Deref} (h : ∀ r ∈ rs, r.Inside s t)
    (h' : ∀ r ∈ rs', r.Inside s t) : ∀ r ∈ rs ++ rs', r.Inside s t := by
  intro r hr
  rcases List.mem_append.mp hr with hr | hr
  · exact h r hr
  · exact h' r hr

/-- A round of the inner loop. -/
theorem matchRound_meets (hk : k ≤ s.text.length) {v : MatchState} (h : MatchInv s t k v) :
    ∃ x, matchRound abi mem v = some x ∧
      x.Meets (fun v' => MatchInv s t k v' ∧
        t.addr + t.text.length - v'.s2 < t.addr + t.text.length - v.s2) (Matched s t k) := by
  rcases h with ⟨i, hi, hki, hs1, hs2, hbytes, hreads⟩
  have hin1 : (Deref.str1 v.s1).Inside s t :=
    CString.contains_span hki (by rw [hs1, Nat.add_assoc])
  have hin2 : (Deref.str2 v.s2).Inside s t := CString.contains_span hi hs2
  have hend : mem v.s2 = 0 ↔ i = t.text.length := by rw [hs2, CString.byte_eq_zero_iff hi]
  unfold matchRound
  by_cases hzero : mem v.s2 = 0
  · -- all bytes have agreed
    refine ⟨_, if_pos (charValue_eq_zero_iff.mpr hzero), ?_⟩
    refine ⟨hin2, ?_, inside_append hreads (by simpa using hin2)⟩
    rw [CString.prefix_drop_iff hk, ← hend.mp hzero]
    exact iff_of_true hzero hbytes
  · rw [if_neg (mt charValue_eq_zero_iff.mp hzero)]
    have hlt : i < t.text.length := Nat.lt_of_le_of_ne hi (mt hend.mpr hzero)
    have hreads' : ∀ r ∈ v.reads ++ [.str2 v.s2, .str1 v.s1, .str2 v.s2], r.Inside s t :=
      inside_append hreads (by simpa using ⟨hin2, hin1, hin2⟩)
    dsimp only
    by_cases hsame : mem v.s1 = mem v.s2
    · refine ⟨_, if_neg (not_not.mpr (charValue_sub_eq_zero_iff.mpr hsame)), ?_⟩
      -- a byte that is not zero is not the terminator of the other string either
      have hki' : k + i ≠ s.text.length := by
        intro heq
        rw [hs1, Nat.add_assoc, heq, s.byte_length] at hsame
        exact hzero hsame.symm
      refine ⟨⟨i + 1, hlt, by omega, by simp only; omega, by simp only; omega, ?_, hreads'⟩,
        by simp only; omega⟩
      intro j hj
      rcases Nat.lt_succ_iff_lt_or_eq.mp hj with hj | rfl
      · exact hbytes j hj
      · rw [← hs1, ← hs2, hsame]
    · -- a byte that differs
      refine ⟨_, if_pos (mt charValue_sub_eq_zero_iff.mp hsame), hin2, ?_, hreads'⟩
      rw [CString.prefix_drop_iff hk]
      refine iff_of_false hzero fun hall => hsame ?_
      rw [hs1, hs2, hall i hlt]

/-- The inner loop, from the start. -/
theorem exists_run_matchRound {reads : List Deref} (hk : k ≤ s.text.length)
    (hfuel : t.text.length < fuel) (hreads : ∀ r ∈ reads, r.Inside s t) :
    ∃ w, Loop.run (matchRound abi mem) fuel ⟨s.addr + k, t.addr, reads⟩ = some w ∧
      Matched s t k w := by
  have hinv : MatchInv s t k ⟨s.addr + k, t.addr, reads⟩ :=
    ⟨0, Nat.zero_le _, hk, rfl, rfl, by simp, hreads⟩
  refine Loop.run_of_invariant (fun v => matchRound_meets hk) hinv ?_
  dsimp only
  omega

/-- A round of the outer loop. -/
theorem searchRound_meets (hne : t.text ≠ []) (hfuel : t.text.length < fuel) {v : SearchState}
    (h : SearchInv s t v) :
    ∃ x, searchRound abi mem fuel t.addr v = some x ∧
      x.Meets (fun v' => SearchInv s t v' ∧
        s.addr + s.text.length - v'.cp < s.addr + s.text.length - v.cp)
        (fun r => Found s t r.1 ∧ ∀ d ∈ r.2, d.Inside s t) := by
  rcases h with ⟨k, hk, hcp, hbefore, hreads⟩
  have hin : (Deref.str1 v.cp).Inside s t := CString.contains_span hk hcp
  have hreads' : ∀ r ∈ v.reads ++ [.str1 v.cp], r.Inside s t :=
    inside_append hreads (by simpa using hin)
  have hend : mem v.cp = 0 ↔ k = s.text.length := by rw [hcp, CString.byte_eq_zero_iff hk]
  unfold searchRound
  dsimp only
  by_cases hzero : mem v.cp = 0
  · -- no offset is left, as the string is not empty
    refine ⟨_, if_pos (charValue_eq_zero_iff.mpr hzero), Or.inr ⟨rfl, ?_⟩, hreads'⟩
    rw [CString.isInfix_iff hne]
    rintro ⟨j, hj, hstands⟩
    exact hbefore j (by rwa [hend.mp hzero]) hstands
  · rw [if_neg (mt charValue_eq_zero_iff.mp hzero)]
    have hlt : k < s.text.length := Nat.lt_of_le_of_ne hk (mt hend.mpr hzero)
    rcases exists_run_matchRound hk hfuel hreads' with ⟨w, hrun, hin2, hmatched, hreadsw⟩
    have hreadsw' : ∀ r ∈ w.reads ++ [.str2 w.s2], r.Inside s t :=
      inside_append hreadsw (by simpa using hin2)
    rw [hcp] at hreads' hrun ⊢
    rw [hrun]
    dsimp only
    by_cases hw : mem w.s2 = 0
    · refine ⟨_, if_pos (charValue_eq_zero_iff.mpr hw), Or.inl ⟨k, rfl, hmatched.mp hw, ?_⟩,
        hreadsw'⟩
      intro j hj
      by_contra hlt
      exact hbefore j (by omega) hj
    · refine ⟨_, if_neg (mt charValue_eq_zero_iff.mp hw), ⟨k + 1, hlt, rfl, ?_, hreadsw'⟩, ?_⟩
      · intro j hj
        rcases Nat.lt_succ_iff_lt_or_eq.mp hj with hj | rfl
        · exact hbefore j hj
        · exact mt hmatched.mpr hw
      · dsimp only
        omega

/-- With enough fuel for either string, `mystrstr` returns. -/
theorem exists_mystrstr (hs : s.text.length < fuel) (ht : t.text.length < fuel) :
    ∃ r, mystrstr abi mem fuel s.addr t.addr = some r ∧
      Found s t r.1 ∧ ∀ d ∈ r.2, d.Inside s t := by
  have hin : (Deref.str2 t.addr).Inside s t := CString.contains_span (Nat.zero_le _) rfl
  have hempty : mem t.addr = 0 ↔ t.text = [] := by
    have hzero : mem (t.addr + 0) = 0 ↔ _ := CString.byte_eq_zero_iff (Nat.zero_le _)
    rw [Nat.add_zero] at hzero
    rw [hzero, eq_comm, List.length_eq_zero_iff]
  unfold mystrstr
  by_cases hzero : mem t.addr = 0
  · refine ⟨_, if_pos (charValue_eq_zero_iff.mpr hzero), Or.inl ⟨0, rfl, ?_, ?_⟩, by simpa using hin⟩
    · simp [hempty.mp hzero]
    · exact fun _ _ => Nat.zero_le _
  · rw [if_neg (mt charValue_eq_zero_iff.mp hzero)]
    have hinv : SearchInv s t ⟨s.addr, [.str2 t.addr]⟩ :=
      ⟨0, Nat.zero_le _, rfl, by simp, by simpa using hin⟩
    refine Loop.run_of_invariant (fun v => searchRound_meets (mt hempty.mpr hzero) ht) hinv ?_
    dsimp only
    omega

/-- One result, whatever the fuel. -/
theorem exists_mystrstr_forall (abi : Abi) (s t : CString mem) :
    ∃ p reads, (∀ fuel, s.text.length < fuel → t.text.length < fuel →
        mystrstr abi mem fuel s.addr t.addr = some (p, reads)) ∧
      Found s t p ∧ ∀ r ∈ reads, r.Inside s t := by
  let least := max s.text.length t.text.length + 1
  have hs : s.text.length < least := Nat.lt_succ_of_le (Nat.le_max_left _ _)
  have ht : t.text.length < least := Nat.lt_succ_of_le (Nat.le_max_right _ _)
  rcases exists_mystrstr hs ht with ⟨r, hrun, hfound, hreads⟩
  refine ⟨r.1, r.2, ?_, hfound, hreads⟩
  intro fuel hs' ht'
  exact mystrstr_mono (Nat.succ_le_of_lt (Nat.max_lt.mpr ⟨hs', ht'⟩)) hrun

end Loops

/-- `mystrstr` on two strings: it returns, with the first occurrence of the second
one in the first one, or null exactly when there is none; and it reads no byte
behind the terminator of either. -/
theorem mystrstr_eq (abi : Abi) {mem : Memory} (s t : CString mem) :
    ∃ p reads, (∀ fuel, s.text.length < fuel → t.text.length < fuel →
        mystrstr abi mem fuel s.addr t.addr = some (p, reads)) ∧
      (∀ k, p = s.addr + k ↔ IsLeast {k | t.text <+: s.text.drop k} k) ∧
      (p = NULL ↔ ¬ t.text <:+: s.text) ∧ (t.text = [] → p = s.addr) ∧
      ∀ r ∈ reads, r.Inside s t := by
  rcases exists_mystrstr_forall abi s t with ⟨p, reads, hrun, hfound, hreads⟩
  refine ⟨p, reads, hrun, fun _ => hfound.eq_add_iff, hfound.eq_null_iff, ?_, hreads⟩
  intro hempty
  have hleast : IsLeast {k | t.text <+: s.text.drop k} 0 := by
    refine ⟨?_, fun _ _ => Nat.zero_le _⟩
    simp [hempty]
  exact hfound.eq_add_iff.mpr hleast

end Yahfa
