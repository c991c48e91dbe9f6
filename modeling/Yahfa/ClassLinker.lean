import Yahfa.Common
import Yahfa.Base.FirstHit

/-!
# `utils.c`: finding the class linker

From R on ART has to be told that a class is initialized, through a method of its
`ClassLinker`. The search for it goes through the `Runtime` object: forward to the
`JavaVM` pointer, and from there backward to a word that looks like a pointer to a
`ClassLinker`.

Every function returns, with its result, what it did to memory: the pointer-sized
words it read, and the addresses it had `isValidAddress` probe, with the answers.
The three loops of the file are searches in the sense of `FirstHit`.
-/

namespace Yahfa

open Bytes

/-! ## Memory accesses -/

/-- What the search does to memory. -/
inductive Access where
  | word (addr : Nat)
  | probe (addr : Nat) (ok : Bool)
deriving DecidableEq, Repr

/-- The calls of `isValidAddress`: for every offset in the `Runtime` object at
most one for the word there and one for the word before it. -/
inductive Probe where
  | classLinker (i : Nat)
  | internTable (i : Nat)
deriving DecidableEq, Repr

/-- What the file finds outside: memory, whether the `write` of a probe succeeds,
and `art_dlopen` and `art_dlsym`. -/
structure ArtEnv where
  mem : Memory
  writable : Probe → Nat → Bool
  artDlopen : String → Int → Nat
  artDlsym : Nat → String → Nat

/-- The address `offset` bytes before another one, as pointers wrap around. -/
def addrSub (abi : Abi) (addr offset : Nat) : Nat :=
  (addr + addressSpace abi - offset) % addressSpace abi

/-- `isValidAddress`. -/
def isValidAddress (E : ArtEnv) (call : Probe) (p : Nat) : Bool :=
  if p = NULL then false else E.writable call p

/-- The values of `for (int i = first; i <= last; i += step)`. -/
def countUp (first last step : Nat) : List Nat :=
  List.range' first ((last - first) / step + 1) step

/-- The values of `for (int i = first - step; i > 0; i -= step)`. -/
def countDown (first step : Nat) : List Nat :=
  (List.range ((first - 1) / step)).map fun k => first - step * (k + 1)

/-- The offset a search found, or -1. -/
def offsetOrFail (r : Option Nat) : Int := (r.map Int.ofNat).getD (-1)

/-! ## The functions -/

section Functions

variable (abi : Abi) (E : ArtEnv)

/-- `commonFindOffset`. -/
def commonFindOffset (start maxCount step value startSearchOffset : Nat) : Int × List Access :=
  if start = NULL then (-1, [])
  else if startSearchOffset > maxCount then (-1, [])
  else
    let r := FirstHit.search (fun i =>
        let currentValue := readAddr abi E.mem (addrAdd abi start i)
        (decide (value = currentValue), [Access.word (addrAdd abi start i)]))
      (countUp startSearchOffset maxCount step)
    (offsetOrFail r.1, r.2)

/-- The address of the vtable in a `ClassLinker`, or NULL below Android 9. -/
def classLinkerVtable (libartHandle : Nat) : Nat :=
  let vtable := E.artDlsym libartHandle "_ZTVN3art11ClassLinkerE"
  if vtable ≠ NULL then vtable + pointerSize abi * 2 else vtable

/-- The loop that looks for the intern table in a `ClassLinker`. -/
def findInternTable (classLinkerAddr internTableAddr : Nat) : Bool × List Access :=
  let r := FirstHit.search (fun j =>
      let internTable := readAddr abi E.mem (addrAdd abi classLinkerAddr j)
      (decide (internTableAddr = internTable), [Access.word (addrAdd abi classLinkerAddr j)]))
    (countUp 200 499 4)
  (r.1.isSome, r.2)

/-- One round of the backward loop: whether `class_linker_offset_value` is set,
which is what ends the loop. -/
def tryOffset (vtable runtimeInstance i : Nat) : Bool × List Access :=
  let classLinkerAddr := readAddr abi E.mem (addrAdd abi runtimeInstance i)
  let read := Access.word (addrAdd abi runtimeInstance i)
  if classLinkerAddr = NULL then (false, [read])
  else if isValidAddress E (.classLinker i) classLinkerAddr = false then
    (false, [read, .probe classLinkerAddr false])
  else if vtable ≠ NULL then
    (decide (readAddr abi E.mem classLinkerAddr = vtable),
      [read, .probe classLinkerAddr true, .word classLinkerAddr])
  else
    let before := addrSub abi (addrAdd abi runtimeInstance i) (pointerSize abi)
    let internTableAddr := readAddr abi E.mem before
    if isValidAddress E (.internTable i) internTableAddr then
      let r := findInternTable abi E classLinkerAddr internTableAddr
      (r.1, [read, .probe classLinkerAddr true, .word before, .probe internTableAddr true] ++ r.2)
    else
      (false, [read, .probe classLinkerAddr true, .word before, .probe internTableAddr false])

/-- `searchClassLinkerOffset`. -/
def searchClassLinkerOffset (vm runtimeInstance libartHandle : Nat) : Int × List Access :=
  let vtable := classLinkerVtable abi E libartHandle
  -- need to search jvm offset from 200
  let r := commonFindOffset abi E runtimeInstance 2000 4 vm 200
  if r.1 < 0 then (-1, r.2)
  else
    let r' := FirstHit.search (tryOffset abi E vtable runtimeInstance) (countDown r.1.toNat 4)
    (offsetOrFail r'.1, r.2 ++ r'.2)

/-- The statics of the file. -/
structure InitClassSymbols where
  classLinker : Nat
  makeInitializedClassesVisiblyInitialized : Nat
deriving DecidableEq, Repr

/-- `findInitClassSymbols`; `jvm` is what `GetJavaVM` gives. -/
def findInitClassSymbols (jvm : Nat) (s : InitClassSymbols) : Int × InitClassSymbols :=
  let handle := E.artDlopen "libart.so" 1
  if handle = NULL then (1, s)
  else
    let runtimeBss := E.artDlsym handle "_ZN3art7Runtime9instance_E"
    if runtimeBss = NULL then (1, s)
    else
      let runtime := readAddr abi E.mem runtimeBss
      if runtime = NULL then (1, s)
      else
        let classLinkerOffset := (searchClassLinkerOffset abi E jvm runtime handle).1
        if classLinkerOffset < 0 then (1, s)
        else
          let make := E.artDlsym handle
            "_ZN3art11ClassLinker40MakeInitializedClassesVisiblyInitializedEPNS_6ThreadEb"
          let s : InitClassSymbols :=
            { classLinker := readAddr abi E.mem (addrAdd abi runtime classLinkerOffset.toNat)
              makeInitializedClassesVisiblyInitialized := make }
          if make = NULL then (1, s) else (0, s)

end Functions

/-! ## The values of the loops -/

section Loops

theorem mem_countUp {first last step i : Nat} (hstep : 0 < step) (hle : first ≤ last) :
    i ∈ countUp first last step ↔ first ≤ i ∧ i ≤ last ∧ step ∣ i - first := by
  unfold countUp
  rw [List.mem_range']
  constructor
  · rintro ⟨k, hk, rfl⟩
    have hdiv : step * k ≤ last - first := by
      have hle' : k ≤ (last - first) / step := Nat.lt_succ_iff.mp hk
      calc step * k ≤ step * ((last - first) / step) := Nat.mul_le_mul_left step hle'
        _ ≤ last - first := Nat.mul_div_le _ _
    refine ⟨Nat.le_add_right _ _, by omega, ?_⟩
    rw [Nat.add_sub_cancel_left]
    exact Nat.dvd_mul_right step k
  · rintro ⟨hfirst, hlast, k, hk⟩
    refine ⟨k, ?_, by omega⟩
    refine Nat.lt_succ_iff.mpr ((Nat.le_div_iff_mul_le hstep).mpr ?_)
    rw [Nat.mul_comm, ← hk]
    omega

theorem pairwise_countUp (first last : Nat) {step : Nat} (hstep : 0 < step) :
    (countUp first last step).Pairwise (· < ·) :=
  List.pairwise_lt_range' step hstep

theorem mem_countDown {first step i : Nat} (hstep : 0 < step) (hdvd : step ∣ first) :
    i ∈ countDown first step ↔ 0 < i ∧ i < first ∧ step ∣ i := by
  rcases hdvd with ⟨n, rfl⟩
  unfold countDown
  simp only [List.mem_map, List.mem_range]
  constructor
  · rintro ⟨k, hk, rfl⟩
    have hlt : step * (k + 1) < step * n := by
      have hle : step * (k + 1) ≤ step * n - 1 := by
        rw [Nat.mul_comm step (k + 1)]
        exact (Nat.le_div_iff_mul_le hstep).mp hk
      have hpos : 0 < step * (k + 1) := Nat.mul_pos hstep (Nat.succ_pos k)
      omega
    have hpos : 0 < step * (k + 1) := Nat.mul_pos hstep (Nat.succ_pos k)
    refine ⟨by omega, by omega, ?_⟩
    rw [← Nat.mul_sub]
    exact Nat.dvd_mul_right _ _
  · rintro ⟨hpos, hlt, k, rfl⟩
    have hkn : k < n := Nat.lt_of_mul_lt_mul_left hlt
    have hk : 0 < k := Nat.pos_of_mul_pos_left hpos
    -- the offset is the one before last that many rounds from the start
    refine ⟨n - k - 1, ?_, ?_⟩
    · refine (Nat.le_div_iff_mul_le hstep).mpr ?_
      have hmul : (n - k) * step + k * step = step * n := by
        rw [← Nat.add_mul, Nat.sub_add_cancel hkn.le, Nat.mul_comm]
      have hkpos : 0 < k * step := Nat.mul_pos hk hstep
      rw [Nat.succ_eq_add_one, Nat.sub_add_cancel (Nat.sub_pos_of_lt hkn)]
      omega
    · rw [Nat.sub_add_cancel (Nat.sub_pos_of_lt hkn), Nat.mul_sub]
      have hle : step * k ≤ step * n := Nat.mul_le_mul_left step hkn.le
      omega

theorem pairwise_countDown {first step : Nat} (hstep : 0 < step) :
    (countDown first step).Pairwise (· > ·) := by
  unfold countDown
  rw [List.pairwise_map]
  refine List.pairwise_lt_range.imp_of_mem ?_
  intro j k _ hk hjk
  have hle : step * (k + 1) ≤ first - 1 := by
    rw [Nat.mul_comm step (k + 1)]
    exact (Nat.le_div_iff_mul_le hstep).mp (List.mem_range.mp hk)
  have hlt : step * (j + 1) < step * (k + 1) := Nat.mul_lt_mul_of_pos_left (by omega) hstep
  omega

end Loops

/-! ## What the search finds -/

section Meaning

variable {abi : Abi} {E : ArtEnv} {runtime vm vtable handle : Nat}

@[simp] theorem offsetOrFail_none : offsetOrFail none = -1 := rfl

@[simp] theorem offsetOrFail_some (i : Nat) : offsetOrFail (some i) = i := rfl

theorem isValidAddress_iff {call : Probe} {p : Nat} :
    isValidAddress E call p = true ↔ p ≠ NULL ∧ E.writable call p = true := by
  unfold isValidAddress
  split
  · next h => simp [h]
  · next h => simp [h]

/-- The word at the offset is the `JavaVM` pointer. -/
def IsJvmAt (abi : Abi) (mem : Memory) (runtime vm i : Nat) : Prop :=
  200 ≤ i ∧ i ≤ 2000 ∧ 4 ∣ i ∧ readAddr abi mem (addrAdd abi runtime i) = vm

/-- The word at an offset in the `Runtime` object. -/
def classLinkerAt (abi : Abi) (E : ArtEnv) (runtime i : Nat) : Nat :=
  readAddr abi E.mem (addrAdd abi runtime i)

/-- The word before that. -/
def internTableAt (abi : Abi) (E : ArtEnv) (runtime i : Nat) : Nat :=
  readAddr abi E.mem (addrSub abi (addrAdd abi runtime i) (pointerSize abi))

/-- `isValidAddress` confirms the word at an offset. -/
def ClassLinkerValid (abi : Abi) (E : ArtEnv) (runtime i : Nat) : Prop :=
  isValidAddress E (.classLinker i) (classLinkerAt abi E runtime i) = true

/-- `isValidAddress` confirms the word before an offset. -/
def InternTableValid (abi : Abi) (E : ArtEnv) (runtime i : Nat) : Prop :=
  isValidAddress E (.internTable i) (internTableAt abi E runtime i) = true

/-- The offset passes the test of the backward loop. -/
def Matches (abi : Abi) (E : ArtEnv) (vtable runtime i : Nat) : Prop :=
  ClassLinkerValid abi E runtime i ∧
    if vtable ≠ NULL then readAddr abi E.mem (classLinkerAt abi E runtime i) = vtable
    else InternTableValid abi E runtime i ∧
      ∃ j ∈ countUp 200 499 4,
        readAddr abi E.mem (addrAdd abi (classLinkerAt abi E runtime i) j) =
          internTableAt abi E runtime i

theorem findInternTable_fst {p q : Nat} :
    (findInternTable abi E p q).1 = true ↔
      ∃ j ∈ countUp 200 499 4, readAddr abi E.mem (addrAdd abi p j) = q := by
  unfold findInternTable
  simp only [FirstHit.search_fst, List.find?_isSome, decide_eq_true_eq]
  constructor
  · rintro ⟨j, hj, hq⟩
    exact ⟨j, hj, hq.symm⟩
  · rintro ⟨j, hj, hq⟩
    exact ⟨j, hj, hq.symm⟩

/-! A round of the loop goes one of four ways. -/

theorem tryOffset_of_invalid {i : Nat} (h : ¬ ClassLinkerValid abi E runtime i) (vtable : Nat) :
    tryOffset abi E vtable runtime i = (false, [.word (addrAdd abi runtime i)]) ∨
      tryOffset abi E vtable runtime i = (false, [.word (addrAdd abi runtime i),
        .probe (classLinkerAt abi E runtime i) false]) := by
  have hinvalid : isValidAddress E (.classLinker i)
      (readAddr abi E.mem (addrAdd abi runtime i)) = false := Bool.eq_false_iff.mpr h
  simp only [tryOffset, hinvalid, if_true]
  split
  · exact Or.inl rfl
  · exact Or.inr rfl

theorem ClassLinkerValid.ne_null {i : Nat} (h : ClassLinkerValid abi E runtime i) :
    classLinkerAt abi E runtime i ≠ NULL := (isValidAddress_iff.mp h).1

theorem tryOffset_of_vtable {i : Nat} (h : ClassLinkerValid abi E runtime i)
    (hvtable : vtable ≠ NULL) :
    tryOffset abi E vtable runtime i =
      (decide (readAddr abi E.mem (classLinkerAt abi E runtime i) = vtable),
        [.word (addrAdd abi runtime i), .probe (classLinkerAt abi E runtime i) true,
          .word (classLinkerAt abi E runtime i)]) := by
  have hnull : readAddr abi E.mem (addrAdd abi runtime i) ≠ NULL := h.ne_null
  have hvalid : isValidAddress E (.classLinker i)
      (readAddr abi E.mem (addrAdd abi runtime i)) = true := h
  simp only [tryOffset]
  rw [if_neg hnull, if_neg (by simp [hvalid]), if_pos hvtable]
  rfl

/-- The reads and probes of a round up to the probe of the intern table. -/
def internAccesses (abi : Abi) (E : ArtEnv) (runtime i : Nat) (ok : Bool) : List Access :=
  [.word (addrAdd abi runtime i), .probe (classLinkerAt abi E runtime i) true,
    .word (addrSub abi (addrAdd abi runtime i) (pointerSize abi)),
    .probe (internTableAt abi E runtime i) ok]

theorem tryOffset_of_internTable {i : Nat} (h : ClassLinkerValid abi E runtime i)
    (hintern : InternTableValid abi E runtime i) :
    tryOffset abi E NULL runtime i =
      ((findInternTable abi E (classLinkerAt abi E runtime i) (internTableAt abi E runtime i)).1,
        internAccesses abi E runtime i true ++
          (findInternTable abi E (classLinkerAt abi E runtime i)
            (internTableAt abi E runtime i)).2) := by
  have hnull : readAddr abi E.mem (addrAdd abi runtime i) ≠ NULL := h.ne_null
  have hvalid : isValidAddress E (.classLinker i)
      (readAddr abi E.mem (addrAdd abi runtime i)) = true := h
  have hintern' : isValidAddress E (.internTable i) (readAddr abi E.mem
      (addrSub abi (addrAdd abi runtime i) (pointerSize abi))) = true := hintern
  simp only [tryOffset]
  rw [if_neg hnull, if_neg (by simp [hvalid]), if_neg (by simp), if_pos hintern']
  rfl

theorem tryOffset_of_no_internTable {i : Nat} (h : ClassLinkerValid abi E runtime i)
    (hintern : ¬ InternTableValid abi E runtime i) :
    tryOffset abi E NULL runtime i = (false, internAccesses abi E runtime i false) := by
  have hnull : readAddr abi E.mem (addrAdd abi runtime i) ≠ NULL := h.ne_null
  have hvalid : isValidAddress E (.classLinker i)
      (readAddr abi E.mem (addrAdd abi runtime i)) = true := h
  have hintern' : ¬ isValidAddress E (.internTable i) (readAddr abi E.mem
      (addrSub abi (addrAdd abi runtime i) (pointerSize abi))) = true := hintern
  simp only [tryOffset]
  rw [if_neg hnull, if_neg (by simp [hvalid]), if_neg (by simp), if_neg hintern']
  rfl

theorem tryOffset_fst (i : Nat) :
    (tryOffset abi E vtable runtime i).1 = true ↔ Matches abi E vtable runtime i := by
  unfold Matches
  by_cases hvalid : ClassLinkerValid abi E runtime i
  · by_cases hvtable : vtable = NULL
    · subst hvtable
      rw [if_neg (by simp)]
      by_cases hintern : InternTableValid abi E runtime i
      · rw [tryOffset_of_internTable hvalid hintern, findInternTable_fst]
        simp [hvalid, hintern]
      · rw [tryOffset_of_no_internTable hvalid hintern]
        simp [hintern]
    · rw [tryOffset_of_vtable hvalid hvtable, if_pos hvtable]
      simp [hvalid]
  · rcases tryOffset_of_invalid hvalid vtable with h | h
    · simp [h, hvalid]
    · simp [h, hvalid]

/-- The forward loop. -/
def jvmSearch (abi : Abi) (E : ArtEnv) (runtime vm : Nat) : Option Nat × List Access :=
  FirstHit.search (fun i => (decide (vm = readAddr abi E.mem (addrAdd abi runtime i)),
    [Access.word (addrAdd abi runtime i)])) (countUp 200 2000 4)

theorem commonFindOffset_eq (hruntime : runtime ≠ NULL) :
    commonFindOffset abi E runtime 2000 4 vm 200 =
      (offsetOrFail (jvmSearch abi E runtime vm).1, (jvmSearch abi E runtime vm).2) := by
  unfold commonFindOffset
  rw [if_neg hruntime, if_neg (by decide)]
  rfl

theorem mem_countUp_jvm {i : Nat} : i ∈ countUp 200 2000 4 ↔ 200 ≤ i ∧ i ≤ 2000 ∧ 4 ∣ i := by
  rw [mem_countUp (by decide) (by decide)]
  omega

theorem mem_countUp_internTable {j : Nat} :
    j ∈ countUp 200 499 4 ↔ 200 ≤ j ∧ j ≤ 496 ∧ 4 ∣ j := by
  rw [mem_countUp (by decide) (by decide)]
  omega

theorem jvmSearch_eq_none_iff :
    (jvmSearch abi E runtime vm).1 = none ↔ ∀ i, ¬ IsJvmAt abi E.mem runtime vm i := by
  unfold jvmSearch
  rw [FirstHit.search_eq_none_iff]
  constructor
  · rintro h i ⟨hlow, hhigh, hdvd, hvm⟩
    have hmiss := h i (mem_countUp_jvm.mpr ⟨hlow, hhigh, hdvd⟩)
    exact of_decide_eq_false hmiss hvm.symm
  · intro h i hi
    rcases mem_countUp_jvm.mp hi with ⟨hlow, hhigh, hdvd⟩
    exact decide_eq_false fun hvm => h i ⟨hlow, hhigh, hdvd, hvm.symm⟩

/-- The forward loop stops at the least offset with the `JavaVM` pointer. -/
theorem jvmSearch_eq_some_iff {j : Nat} :
    (jvmSearch abi E runtime vm).1 = some j ↔ IsLeast {i | IsJvmAt abi E.mem runtime vm i} j := by
  unfold jvmSearch
  rw [FirstHit.search_eq_some_iff _ (fun _ _ => Nat.lt_asymm)
    (pairwise_countUp 200 2000 (by decide))]
  constructor
  · rintro ⟨⟨hj, hhit⟩, hbefore⟩
    rcases mem_countUp_jvm.mp hj with ⟨hlow, hhigh, hdvd⟩
    refine ⟨⟨hlow, hhigh, hdvd, (of_decide_eq_true hhit).symm⟩, ?_⟩
    rintro i ⟨hlow', hhigh', hdvd', hvm⟩
    by_contra hlt
    have hmiss := hbefore i (mem_countUp_jvm.mpr ⟨hlow', hhigh', hdvd'⟩) (not_le.mp hlt)
    exact of_decide_eq_false hmiss hvm.symm
  · rintro ⟨⟨hlow, hhigh, hdvd, hvm⟩, hleast⟩
    refine ⟨⟨mem_countUp_jvm.mpr ⟨hlow, hhigh, hdvd⟩, decide_eq_true hvm.symm⟩, ?_⟩
    intro i hi hlt
    rcases mem_countUp_jvm.mp hi with ⟨hlow', hhigh', hdvd'⟩
    exact decide_eq_false fun hvm' => not_le.mpr hlt (hleast ⟨hlow', hhigh', hdvd', hvm'.symm⟩)

theorem searchClassLinkerOffset_of_no_jvm (hruntime : runtime ≠ NULL)
    (h : ∀ i, ¬ IsJvmAt abi E.mem runtime vm i) :
    searchClassLinkerOffset abi E vm runtime handle = (-1, (jvmSearch abi E runtime vm).2) := by
  unfold searchClassLinkerOffset
  simp only [commonFindOffset_eq hruntime, jvmSearch_eq_none_iff.mpr h]
  rfl

theorem searchClassLinkerOffset_of_jvm (hruntime : runtime ≠ NULL) {j : Nat}
    (h : IsLeast {i | IsJvmAt abi E.mem runtime vm i} j) :
    searchClassLinkerOffset abi E vm runtime handle =
      (offsetOrFail (FirstHit.search (tryOffset abi E (classLinkerVtable abi E handle) runtime)
          (countDown j 4)).1,
        (jvmSearch abi E runtime vm).2 ++
          (FirstHit.search (tryOffset abi E (classLinkerVtable abi E handle) runtime)
            (countDown j 4)).2) := by
  unfold searchClassLinkerOffset
  simp only [commonFindOffset_eq hruntime, jvmSearch_eq_some_iff.mpr h]
  rw [if_neg (by simp)]
  rfl

/-- The backward loop stops at the greatest offset that passes its test. -/
theorem backward_eq_some_iff {j : Nat} (hdvd : 4 ∣ j) {i : Nat} :
    (FirstHit.search (tryOffset abi E vtable runtime) (countDown j 4)).1 = some i ↔
      IsGreatest {i | 4 ∣ i ∧ 0 < i ∧ i < j ∧ Matches abi E vtable runtime i} i := by
  rw [FirstHit.search_eq_some_iff (r := (· > ·)) _ (fun _ _ => Nat.lt_asymm)
    (pairwise_countDown (by decide)), tryOffset_fst]
  constructor
  · rintro ⟨⟨hi, hhit⟩, hbefore⟩
    rcases (mem_countDown (by decide) hdvd).mp hi with ⟨hpos, hlt, hdvd'⟩
    refine ⟨⟨hdvd', hpos, hlt, hhit⟩, ?_⟩
    rintro k ⟨hk, hkpos, hklt, hmatch⟩
    by_contra hik
    have hmiss := hbefore k ((mem_countDown (by decide) hdvd).mpr ⟨hkpos, hklt, hk⟩) (not_le.mp hik)
    exact Bool.eq_false_iff.mp hmiss ((tryOffset_fst k).mpr hmatch)
  · rintro ⟨⟨hi, hpos, hlt, hhit⟩, hgreatest⟩
    refine ⟨⟨(mem_countDown (by decide) hdvd).mpr ⟨hpos, hlt, hi⟩, hhit⟩, ?_⟩
    intro k hk hik
    rcases (mem_countDown (by decide) hdvd).mp hk with ⟨hkpos, hklt, hk'⟩
    refine Bool.eq_false_iff.mpr fun hmatch => ?_
    exact not_le.mpr hik (hgreatest ⟨hk', hkpos, hklt, (tryOffset_fst k).mp hmatch⟩)

theorem backward_eq_none_iff {j : Nat} (hdvd : 4 ∣ j) :
    (FirstHit.search (tryOffset abi E vtable runtime) (countDown j 4)).1 = none ↔
      ∀ i, ¬ (4 ∣ i ∧ 0 < i ∧ i < j ∧ Matches abi E vtable runtime i) := by
  rw [FirstHit.search_eq_none_iff]
  constructor
  · rintro h i ⟨hi, hpos, hlt, hmatch⟩
    have hmiss := h i ((mem_countDown (by decide) hdvd).mpr ⟨hpos, hlt, hi⟩)
    exact Bool.eq_false_iff.mp hmiss ((tryOffset_fst i).mpr hmatch)
  · intro h i hi
    rcases (mem_countDown (by decide) hdvd).mp hi with ⟨hpos, hlt, hi'⟩
    exact Bool.eq_false_iff.mpr fun hmatch => h i ⟨hi', hpos, hlt, (tryOffset_fst i).mp hmatch⟩

/-- The word at the offset looks like a pointer to a `ClassLinker`: it is valid,
and there is the vtable or, without a vtable symbol, the intern table that the
word before it points to. -/
def LooksLikeClassLinker (abi : Abi) (mem : Memory) (ok : Nat → Bool) (vtableSymbol runtime i : Nat) :
    Prop :=
  let p := readAddr abi mem (addrAdd abi runtime i)
  p ≠ NULL ∧ ok p = true ∧
    if vtableSymbol ≠ NULL then readAddr abi mem p = vtableSymbol + 2 * pointerSize abi
    else
      let q := readAddr abi mem (addrSub abi (addrAdd abi runtime i) (pointerSize abi))
      q ≠ NULL ∧ ok q = true ∧
        ∃ j, 200 ≤ j ∧ j ≤ 496 ∧ 4 ∣ j ∧ readAddr abi mem (addrAdd abi p j) = q

theorem classLinkerVtable_ne_null :
    classLinkerVtable abi E handle ≠ NULL ↔ E.artDlsym handle "_ZTVN3art11ClassLinkerE" ≠ NULL := by
  simp only [classLinkerVtable]
  split
  · next h => simp [h]
  · next h => simp [not_not.mp h]

/-- With a fixed answer for every address, that is what the test tests. -/
theorem matches_iff {ok : Nat → Bool} (hok : ∀ call p, E.writable call p = ok p) {i : Nat} :
    Matches abi E (classLinkerVtable abi E handle) runtime i ↔
      LooksLikeClassLinker abi E.mem ok (E.artDlsym handle "_ZTVN3art11ClassLinkerE") runtime i := by
  have hvalid : ∀ call p, isValidAddress E call p = true ↔ p ≠ NULL ∧ ok p = true := by
    intro call p
    rw [isValidAddress_iff, hok]
  unfold Matches LooksLikeClassLinker ClassLinkerValid InternTableValid
  simp only [hvalid, mem_countUp_internTable, classLinkerVtable_ne_null]
  by_cases hsymbol : E.artDlsym handle "_ZTVN3art11ClassLinkerE" ≠ NULL
  · simp [hsymbol, classLinkerVtable, classLinkerAt, Nat.mul_comm, and_assoc]
  · simp [hsymbol, classLinkerAt, internTableAt, and_assoc]

/-- The offsets the backward search is about: those of words in front of the
`JavaVM` pointer that look like a `ClassLinker`. -/
def Candidates (abi : Abi) (E : ArtEnv) (ok : Nat → Bool) (vtableSymbol runtime jvmOffset : Nat) :
    Set Nat :=
  {i | 4 ∣ i ∧ 0 < i ∧ i < jvmOffset ∧ LooksLikeClassLinker abi E.mem ok vtableSymbol runtime i}

/-- The word at an offset the search returns is not NULL. -/
theorem classLinkerAt_ne_null (hruntime : runtime ≠ NULL)
    (h : 0 ≤ (searchClassLinkerOffset abi E vm runtime handle).1) :
    classLinkerAt abi E runtime (searchClassLinkerOffset abi E vm runtime handle).1.toNat ≠ NULL := by
  cases hjvm : (jvmSearch abi E runtime vm).1 with
  | none =>
      rw [searchClassLinkerOffset_of_no_jvm hruntime (jvmSearch_eq_none_iff.mp hjvm)] at h
      exact absurd (show (0 : Int) ≤ -1 from h) (by decide)
  | some j =>
      have hleast := jvmSearch_eq_some_iff.mp hjvm
      rw [searchClassLinkerOffset_of_jvm hruntime hleast] at h ⊢
      cases hback : (FirstHit.search (tryOffset abi E (classLinkerVtable abi E handle) runtime)
          (countDown j 4)).1 with
      | none =>
          rw [hback] at h
          exact absurd (show (0 : Int) ≤ -1 from h) (by decide)
      | some i => exact ((backward_eq_some_iff hleast.1.2.2.1).mp hback).1.2.2.2.1.ne_null

/-- `findInitClassSymbols` stores no NULL class linker, and does not succeed
without one. -/
theorem findInitClassSymbols_classLinker (abi : Abi) (E : ArtEnv) (jvm : Nat)
    (s : InitClassSymbols) :
    ((findInitClassSymbols abi E jvm s).2 = s ∧ (findInitClassSymbols abi E jvm s).1 ≠ 0) ∨
      (findInitClassSymbols abi E jvm s).2.classLinker ≠ NULL := by
  simp only [findInitClassSymbols]
  split
  · exact Or.inl ⟨rfl, Int.one_ne_zero⟩
  split
  · exact Or.inl ⟨rfl, Int.one_ne_zero⟩
  split
  · exact Or.inl ⟨rfl, Int.one_ne_zero⟩
  next hruntime =>
    split
    · exact Or.inl ⟨rfl, Int.one_ne_zero⟩
    next hoffset =>
      right
      split
      · exact classLinkerAt_ne_null hruntime (not_lt.mp hoffset)
      · exact classLinkerAt_ne_null hruntime (not_lt.mp hoffset)

/-- `searchClassLinkerOffset` with a fixed answer of `isValidAddress` for every
address: without a `JavaVM` pointer it fails; with the first one at `jvmOffset` it
returns the greatest candidate, and fails exactly when there is none. So what
`findInitClassSymbols` takes for the class linker is never NULL. -/
theorem searchClassLinkerOffset_spec {ok : Nat → Bool} (hok : ∀ call p, E.writable call p = ok p)
    (hruntime : runtime ≠ NULL) (vm handle : Nat) :
    let r := (searchClassLinkerOffset abi E vm runtime handle).1
    let candidates := Candidates abi E ok (E.artDlsym handle "_ZTVN3art11ClassLinkerE") runtime
    ((∀ i, ¬ IsJvmAt abi E.mem runtime vm i) → r = -1) ∧
    (∀ jvmOffset, IsLeast {i | IsJvmAt abi E.mem runtime vm i} jvmOffset →
        (r = -1 ↔ candidates jvmOffset = ∅) ∧
          ∀ i : Nat, r = i ↔ IsGreatest (candidates jvmOffset) i) ∧
    ∀ jvm s, ((findInitClassSymbols abi E jvm s).2 = s ∧ (findInitClassSymbols abi E jvm s).1 ≠ 0) ∨
      (findInitClassSymbols abi E jvm s).2.classLinker ≠ NULL := by
  intro r candidates
  refine ⟨?_, ?_, findInitClassSymbols_classLinker abi E⟩
  · -- without the `JavaVM` pointer the search gives up
    intro hnone
    exact congrArg Prod.fst (searchClassLinkerOffset_of_no_jvm hruntime hnone)
  · intro jvmOffset hleast
    -- with it, the descending search from its offset is all that matters
    have hdvd : 4 ∣ jvmOffset := hleast.1.2.2.1
    have hcandidates : candidates jvmOffset = {i | 4 ∣ i ∧ 0 < i ∧ i < jvmOffset ∧
        Matches abi E (classLinkerVtable abi E handle) runtime i} := by
      ext i
      simp only [candidates, Candidates, Set.mem_ofPred_eq, matches_iff hok]
    have hr : r = offsetOrFail (FirstHit.search (tryOffset abi E (classLinkerVtable abi E handle)
        runtime) (countDown jvmOffset 4)).1 :=
      congrArg Prod.fst (searchClassLinkerOffset_of_jvm hruntime hleast)
    rw [hcandidates, hr]
    constructor
    · rw [Set.eq_empty_iff_forall_notMem]
      refine Iff.trans ?_ (backward_eq_none_iff hdvd)
      cases (FirstHit.search (tryOffset abi E (classLinkerVtable abi E handle) runtime)
        (countDown jvmOffset 4)).1 with
      | none => simp
      | some k => simp
    · intro i
      refine Iff.trans ?_ (backward_eq_some_iff hdvd)
      cases (FirstHit.search (tryOffset abi E (classLinkerVtable abi E handle) runtime)
        (countDown jvmOffset 4)).1 with
      | none => simp
      | some k => simp

/-- 32-bit: a `Runtime` object at `0x1000` with the `JavaVM` pointer `0x9000` at
offset 200, and pointers to the intern table `0x6000` and the class linker `0x5000` at
offsets 96 and 100. The class linker holds its vtable pointer `0x7008` and, at offset
240, the intern table. -/
def exampleMem : Memory :=
  writeAddr .arm (writeAddr .arm (writeAddr .arm (writeAddr .arm (writeAddr .arm
    (fun _ => 0) 0x10c8 0x9000) 0x1060 0x6000) 0x1064 0x5000) 0x5000 0x7008) 0x50f0 0x6000

/-- The two objects are the only valid addresses; `libart` may have a symbol for the
vtable or not. -/
def exampleEnv (vtable : Nat) : ArtEnv where
  mem := exampleMem
  writable _ p := p = 0x5000 ∨ p = 0x6000
  artDlopen _ _ := 1
  artDlsym _ name := if name = "_ZTVN3art11ClassLinkerE" then vtable else NULL

/-- The class linker is found, by its vtable and without it by the intern table. -/
theorem searchClassLinkerOffset_spec_found :
    (searchClassLinkerOffset .arm (exampleEnv 0x7000) 0x9000 0x1000 1).1 = 100 ∧
      (searchClassLinkerOffset .arm (exampleEnv NULL) 0x9000 0x1000 1).1 = 100 := by
  let ok : Nat → Bool := fun p => p = 0x5000 ∨ p = 0x6000
  have hspec : ∀ vtable, (searchClassLinkerOffset .arm (exampleEnv vtable) 0x9000 0x1000 1).1 =
      (100 : Nat) ↔ IsGreatest (Candidates .arm (exampleEnv vtable) ok vtable 0x1000 200) 100 := by
    intro vtable
    have hjvm : readAddr .arm exampleMem (addrAdd .arm 0x1000 200) = 0x9000 := by decide +kernel
    have hleast : IsLeast {i | IsJvmAt .arm exampleMem 0x1000 0x9000 i} 200 :=
      ⟨⟨by decide, by decide, by decide, hjvm⟩, fun i hi => hi.1⟩
    exact ((searchClassLinkerOffset_spec (fun _ _ => rfl) (by decide) 0x9000 1).2.1 200
      hleast).2 100
  have hgreatest : ∀ vtable, 100 ∈ Candidates .arm (exampleEnv vtable) ok vtable 0x1000 200 →
      IsGreatest (Candidates .arm (exampleEnv vtable) ok vtable 0x1000 200) 100 := by
    intro vtable hmem
    refine ⟨hmem, ?_⟩
    rintro i ⟨hdvd, -, hlt, hne, -⟩
    -- there is nothing between the two pointers
    have hzero : ∀ i < 200, 100 < i → 4 ∣ i →
        readAddr .arm exampleMem (addrAdd .arm 0x1000 i) = NULL := by decide +kernel
    by_contra hle
    exact hne (hzero i hlt (not_le.mp hle) hdvd)
  constructor
  · refine (hspec 0x7000).mpr (hgreatest 0x7000 ⟨by decide, by decide, by decide, ?_⟩)
    refine ⟨by decide +kernel, by decide +kernel, ?_⟩
    rw [if_pos (by decide)]
    decide +kernel
  · refine (hspec NULL).mpr (hgreatest NULL ⟨by decide, by decide, by decide, ?_⟩)
    refine ⟨by decide +kernel, by decide +kernel, ?_⟩
    rw [if_neg (by decide)]
    exact ⟨by decide +kernel, by decide +kernel, 240, by decide, by decide, by decide,
      by decide +kernel⟩

end Meaning

end Yahfa
