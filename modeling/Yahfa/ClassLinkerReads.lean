import Yahfa.ClassLinker

/-!
# What the class linker search reads

A word may be read if it starts inside the `Runtime` object, at an offset up to
2000, or if it lies inside the 4 bytes of an address that `isValidAddress` has
confirmed before. The search checks 4 bytes, reads a pointer, and goes on up to
496 bytes behind the address it checked; on 64 bit it can also read in front of
the object. `confined_iff` says for which contents of memory that does no harm.
-/

namespace Yahfa

open Bytes

variable {abi : Abi} {E : ArtEnv} {runtime vm vtable handle : Nat}

/-! ## Allowed reads -/

/-- The address of a word that starts inside the `Runtime` object. -/
def InRuntime (abi : Abi) (runtime a : Nat) : Prop := ∃ o ≤ 2000, a = addrAdd abi runtime o

/-- The word at the address may be read, after some accesses. -/
def MayRead (abi : Abi) (runtime : Nat) (earlier : List Access) (a : Nat) : Prop :=
  InRuntime abi runtime a ∨
    ∃ q, Access.probe q true ∈ earlier ∧ (Span.mk a (pointerSize abi)).Within ⟨q, 4⟩

/-- Every word that is read may be read, after what was done before. -/
def Confined (abi : Abi) (runtime : Nat) : List Access → List Access → Prop
  | _, [] => True
  | earlier, .word a :: rest =>
      MayRead abi runtime earlier a ∧ Confined abi runtime (earlier ++ [.word a]) rest
  | earlier, .probe q ok :: rest => Confined abi runtime (earlier ++ [.probe q ok]) rest

@[simp] theorem confined_nil (earlier : List Access) : Confined abi runtime earlier [] := trivial

@[simp] theorem confined_word {earlier rest : List Access} {a : Nat} :
    Confined abi runtime earlier (.word a :: rest) ↔
      MayRead abi runtime earlier a ∧ Confined abi runtime (earlier ++ [.word a]) rest := Iff.rfl

@[simp] theorem confined_probe {earlier rest : List Access} {q : Nat} {ok : Bool} :
    Confined abi runtime earlier (.probe q ok :: rest) ↔
      Confined abi runtime (earlier ++ [.probe q ok]) rest := Iff.rfl

theorem piecewise_confined : FirstHit.Piecewise (Confined abi runtime) where
  nil := confined_nil
  append := by
    intro earlier t u
    induction t generalizing earlier with
    | nil => simp
    | cons access t ih =>
        cases access with
        | word a => simp [ih, and_assoc]
        | probe q ok => simp [ih]

/-- What has been read before does not matter, only what has been confirmed. -/
theorem mayRead_congr {earlier earlier' : List Access}
    (h : ∀ q, Access.probe q true ∈ earlier ↔ Access.probe q true ∈ earlier') {a : Nat} :
    MayRead abi runtime earlier a ↔ MayRead abi runtime earlier' a := by
  unfold MayRead
  simp only [h]

theorem mayRead_of_inRuntime {earlier : List Access} {o : Nat} (ho : o ≤ 2000) :
    MayRead abi runtime earlier (addrAdd abi runtime o) := Or.inl ⟨o, ho, rfl⟩

/-- A word fits into 4 bytes on 32 bit only. -/
theorem within_confirmed_iff {a q : Nat} :
    (Span.mk a (pointerSize abi)).Within ⟨q, 4⟩ ↔ pointerSize abi = 4 ∧ a = q := by
  simp only [Span.Within]
  rcases pointerSize_cases abi with hp | hp <;> rw [hp] <;> omega

theorem mayRead_iff {earlier : List Access} {a : Nat} :
    MayRead abi runtime earlier a ↔
      InRuntime abi runtime a ∨ (pointerSize abi = 4 ∧ Access.probe a true ∈ earlier) := by
  unfold MayRead
  simp only [within_confirmed_iff]
  constructor
  · rintro (hin | ⟨q, hq, hp, rfl⟩)
    · exact Or.inl hin
    · exact Or.inr ⟨hp, hq⟩
  · rintro (hin | ⟨hp, hq⟩)
    · exact Or.inl hin
    · exact Or.inr ⟨a, hq, hp, rfl⟩

/-- The word before an offset is in the object unless the offset is too small for
a pointer: then it starts in front of the object. -/
theorem inRuntime_before_iff {i : Nat} (hdvd : 4 ∣ i) (hpos : 0 < i) (hle : i ≤ 2000) :
    InRuntime abi runtime (addrSub abi (addrAdd abi runtime i) (pointerSize abi)) ↔
      pointerSize abi ≤ i := by
  have hwidth : (addressSpace abi = 4294967296 ∧ pointerSize abi = 4) ∨
      (addressSpace abi = 18446744073709551616 ∧ pointerSize abi = 8) := by
    cases abi <;> decide
  unfold InRuntime addrSub addrAdd
  rcases hwidth with ⟨hspace, hp⟩ | ⟨hspace, hp⟩ <;> rw [hspace, hp]
  · constructor
    · rintro ⟨o, ho, heq⟩
      omega
    · intro hge
      exact ⟨i - 4, by omega, by omega⟩
  · constructor
    · rintro ⟨o, ho, heq⟩
      omega
    · intro hge
      exact ⟨i - 8, by omega, by omega⟩

/-! ## One round of the backward loop -/

/-- What a round confirms. -/
def Confirms (abi : Abi) (E : ArtEnv) (vtable runtime i q : Nat) : Prop :=
  ClassLinkerValid abi E runtime i ∧
    (q = classLinkerAt abi E runtime i ∨
      (vtable = NULL ∧ InternTableValid abi E runtime i ∧ q = internTableAt abi E runtime i))

/-- The intern table is looked for in front of `j` without success. -/
def NotBefore (abi : Abi) (E : ArtEnv) (p q j : Nat) : Prop :=
  ∀ k ∈ countUp 200 499 4, k < j → q ≠ readAddr abi E.mem (addrAdd abi p k)

theorem probe_notMem_findInternTable {p q a : Nat} {ok : Bool} :
    Access.probe a ok ∉ (findInternTable abi E p q).2 := by
  intro h
  rcases FirstHit.exists_of_mem_search _ h with ⟨j, -, hj⟩
  simp at hj

theorem probe_mem_tryOffset {i q : Nat} :
    Access.probe q true ∈ (tryOffset abi E vtable runtime i).2 ↔
      Confirms abi E vtable runtime i q := by
  unfold Confirms
  by_cases hvalid : ClassLinkerValid abi E runtime i
  · by_cases hvtable : vtable = NULL
    · subst hvtable
      by_cases hintern : InternTableValid abi E runtime i
      · rw [tryOffset_of_internTable hvalid hintern, List.mem_append]
        simp [internAccesses, probe_notMem_findInternTable, hvalid, hintern]
      · rw [tryOffset_of_no_internTable hvalid hintern]
        simp [internAccesses, hvalid, hintern]
    · rw [tryOffset_of_vtable hvalid hvtable]
      simp [hvalid, hvtable]
  · rcases tryOffset_of_invalid hvalid vtable with h | h
    · simp [h, hvalid]
    · simp [h, hvalid]

/-- The loop over the class linker reads its words up to the intern table. -/
theorem confined_findInternTable {earlier : List Access} {p q : Nat} :
    Confined abi runtime earlier (findInternTable abi E p q).2 ↔
      ∀ j ∈ countUp 200 499 4, NotBefore abi E p q j →
        MayRead abi runtime earlier (addrAdd abi p j) := by
  unfold findInternTable
  rw [FirstHit.holds_search_iff_of_pairwise (r := (· < ·)) piecewise_confined
    (fun _ _ => Nat.lt_asymm) (pairwise_countUp 200 499 (by decide))]
  refine forall₂_congr fun j hj => ?_
  have hmiss : (∀ k ∈ countUp 200 499 4, k < j →
      decide (q = readAddr abi E.mem (addrAdd abi p k)) = false) ↔ NotBefore abi E p q j := by
    unfold NotBefore
    simp only [decide_eq_false_iff_not, ne_eq]
  rw [hmiss, confined_word]
  simp only [confined_nil, and_true]
  refine imp_congr_right fun _ => mayRead_congr ?_
  intro a
  simp

/-- When the reads of a round are allowed, given what may be read once it has
confirmed the two words: with a vtable, one word behind the confirmed address;
without one, the word before the offset, and the words of the class linker. -/
def RoundAllowed (abi : Abi) (E : ArtEnv) (vtable runtime i : Nat) (allowed : Nat → Prop) : Prop :=
  ClassLinkerValid abi E runtime i →
    if vtable ≠ NULL then
      InRuntime abi runtime (classLinkerAt abi E runtime i) ∨ pointerSize abi = 4
    else
      pointerSize abi ≤ i ∧ (InternTableValid abi E runtime i →
        ∀ j ∈ countUp 200 499 4,
          NotBefore abi E (classLinkerAt abi E runtime i) (internTableAt abi E runtime i) j →
            allowed (addrAdd abi (classLinkerAt abi E runtime i) j))

theorem confined_tryOffset {earlier : List Access} {i : Nat} (hdvd : 4 ∣ i) (hpos : 0 < i)
    (hle : i ≤ 2000) :
    Confined abi runtime earlier (tryOffset abi E vtable runtime i).2 ↔
      RoundAllowed abi E vtable runtime i
        (MayRead abi runtime (earlier ++ internAccesses abi E runtime i true)) := by
  have hread : ∀ earlier, MayRead abi runtime earlier (addrAdd abi runtime i) :=
    fun _ => mayRead_of_inRuntime hle
  -- the word before the offset cannot be one of 4 confirmed bytes on 64 bit
  have hbefore : ∀ earlier, MayRead abi runtime earlier
      (addrSub abi (addrAdd abi runtime i) (pointerSize abi)) ↔ pointerSize abi ≤ i := by
    intro earlier
    rw [mayRead_iff, inRuntime_before_iff hdvd hpos hle]
    constructor
    · rintro (hge | ⟨hp, -⟩)
      · exact hge
      · have hfour : 4 ≤ i := Nat.le_of_dvd hpos hdvd
        omega
    · exact Or.inl
  unfold RoundAllowed
  by_cases hvalid : ClassLinkerValid abi E runtime i
  · simp only [hvalid, forall_true_left]
    by_cases hvtable : vtable = NULL
    · subst hvtable
      rw [if_neg (by simp)]
      by_cases hintern : InternTableValid abi E runtime i
      · rw [tryOffset_of_internTable hvalid hintern, piecewise_confined.append,
          confined_findInternTable]
        simp [internAccesses, hread, hbefore, hintern]
      · rw [tryOffset_of_no_internTable hvalid hintern]
        simp [internAccesses, hread, hbefore, hintern]
    · rw [tryOffset_of_vtable hvalid hvtable, if_pos hvtable]
      simp [hread, mayRead_iff]
  · rcases tryOffset_of_invalid hvalid vtable with h | h
    · simp [h, hvalid, hread]
    · simp [h, hvalid, hread]

theorem roundAllowed_congr {i : Nat} {P Q : Nat → Prop}
    (h : ClassLinkerValid abi E runtime i → vtable = NULL → InternTableValid abi E runtime i →
      ∀ a, P a ↔ Q a) :
    RoundAllowed abi E vtable runtime i P ↔ RoundAllowed abi E vtable runtime i Q := by
  unfold RoundAllowed
  refine imp_congr_right fun hvalid => ?_
  by_cases hvtable : vtable = NULL
  · rw [if_neg (not_not.mpr hvtable), if_neg (not_not.mpr hvtable)]
    refine and_congr_right fun _ => imp_congr_right fun hintern => ?_
    exact forall₃_congr fun j _ _ => h hvalid hvtable hintern _
  · rw [if_pos hvtable, if_pos hvtable]

/-! ## The whole search -/

/-- The backward loop gets to the offset: nothing above it passes the test. -/
def Visited (abi : Abi) (E : ArtEnv) (vtable runtime jvmOffset i : Nat) : Prop :=
  (4 ∣ i ∧ 0 < i ∧ i < jvmOffset) ∧
    ∀ k, 4 ∣ k → i < k → k < jvmOffset → ¬ Matches abi E vtable runtime k

/-- The address is in the object or, on 32 bit, has been confirmed in this round
or one before. -/
def InRuntimeOrConfirmed (abi : Abi) (E : ArtEnv) (vtable runtime jvmOffset i a : Nat) : Prop :=
  InRuntime abi runtime a ∨
    (pointerSize abi = 4 ∧ ∃ k, 4 ∣ k ∧ i ≤ k ∧ k < jvmOffset ∧ Confirms abi E vtable runtime k a)

/-- The forward loop stays in the object, and confirms nothing. -/
theorem confined_jvmSearch {earlier : List Access} :
    Confined abi runtime earlier (jvmSearch abi E runtime vm).2 := by
  unfold jvmSearch
  rw [FirstHit.holds_search_iff piecewise_confined]
  intro pre i post hsplit _
  have hi : i ∈ countUp 200 2000 4 := by simp [hsplit]
  simpa using mayRead_of_inRuntime (mem_countUp_jvm.mp hi).2.1

theorem probe_notMem_jvmSearch {a : Nat} {ok : Bool} :
    Access.probe a ok ∉ (jvmSearch abi E runtime vm).2 := by
  intro h
  rcases FirstHit.exists_of_mem_search _ h with ⟨i, -, hi⟩
  simp at hi

theorem mem_countDown_four {jvmOffset i : Nat} (hdvd : 4 ∣ jvmOffset) :
    i ∈ countDown jvmOffset 4 ↔ 0 < i ∧ i < jvmOffset ∧ 4 ∣ i :=
  mem_countDown (by decide) hdvd

/-- The rounds the loop gets to are those above which it has missed. -/
theorem visited_iff {jvmOffset i : Nat} (hdvd : 4 ∣ jvmOffset) :
    Visited abi E vtable runtime jvmOffset i ↔
      i ∈ countDown jvmOffset 4 ∧ ∀ k ∈ countDown jvmOffset 4, k > i →
        (tryOffset abi E vtable runtime k).1 = false := by
  unfold Visited
  simp only [mem_countDown_four hdvd, Bool.eq_false_iff, ne_eq, tryOffset_fst]
  constructor
  · rintro ⟨⟨hi, hpos, hlt⟩, habove⟩
    exact ⟨⟨hpos, hlt, hi⟩, fun k hk hik => habove k hk.2.2 hik hk.2.1⟩
  · rintro ⟨⟨hpos, hlt, hi⟩, habove⟩
    exact ⟨⟨hi, hpos, hlt⟩, fun k hk hik hklt => habove k ⟨by omega, hklt, hk⟩ hik⟩

/-- What has been confirmed by the time round `i` reads the class linker. -/
theorem mayRead_round_iff {earlier : List Access} {jvmOffset i : Nat} (hdvd : 4 ∣ jvmOffset)
    (hearlier : ∀ q, Access.probe q true ∉ earlier) (hi : i ∈ countDown jvmOffset 4)
    (hvalid : ClassLinkerValid abi E runtime i) (hvtable : vtable = NULL)
    (hintern : InternTableValid abi E runtime i) (a : Nat) :
    MayRead abi runtime (earlier ++ ((countDown jvmOffset 4).filter fun k => k > i).flatMap
        (fun k => (tryOffset abi E vtable runtime k).2) ++ internAccesses abi E runtime i true) a ↔
      InRuntimeOrConfirmed abi E vtable runtime jvmOffset i a := by
  unfold InRuntimeOrConfirmed
  rw [mayRead_iff]
  refine or_congr_right (and_congr_right fun _ => ?_)
  simp only [List.mem_append, hearlier, false_or, List.mem_flatMap, List.mem_filter,
    probe_mem_tryOffset, decide_eq_true_eq]
  constructor
  · rintro (⟨k, ⟨hk, hik⟩, hconfirms⟩ | hround)
    · -- confirmed in an earlier round
      rcases (mem_countDown_four hdvd).mp hk with ⟨-, hlt, hdvd⟩
      exact ⟨k, hdvd, le_of_lt hik, hlt, hconfirms⟩
    · -- confirmed in this one
      rcases (mem_countDown_four hdvd).mp hi with ⟨-, hlt, hdvd⟩
      refine ⟨i, hdvd, le_refl i, hlt, hvalid, ?_⟩
      simpa [internAccesses, hvtable, hintern] using hround
  · rintro ⟨k, hk, hik, hlt, hconfirms⟩
    rcases hik.lt_or_eq with hik | rfl
    · exact Or.inl ⟨k, ⟨(mem_countDown_four hdvd).mpr ⟨by omega, hlt, hk⟩, hik⟩, hconfirms⟩
    · right
      simpa [internAccesses, hvtable, hintern] using hconfirms.2

theorem confined_backward {earlier : List Access} {jvmOffset : Nat} (hdvd : 4 ∣ jvmOffset)
    (hle : jvmOffset ≤ 2000) (hearlier : ∀ q, Access.probe q true ∉ earlier) :
    Confined abi runtime earlier
        (FirstHit.search (tryOffset abi E vtable runtime) (countDown jvmOffset 4)).2 ↔
      ∀ i, Visited abi E vtable runtime jvmOffset i →
        RoundAllowed abi E vtable runtime i
          (InRuntimeOrConfirmed abi E vtable runtime jvmOffset i) := by
  rw [FirstHit.holds_search_iff_of_pairwise (r := (· > ·)) piecewise_confined
    (fun _ _ => Nat.lt_asymm) (pairwise_countDown (by decide))]
  have hround : ∀ i ∈ countDown jvmOffset 4,
      Confined abi runtime (earlier ++ ((countDown jvmOffset 4).filter fun k => k > i).flatMap
          fun k => (tryOffset abi E vtable runtime k).2) (tryOffset abi E vtable runtime i).2 ↔
        RoundAllowed abi E vtable runtime i
          (InRuntimeOrConfirmed abi E vtable runtime jvmOffset i) := by
    intro i hi
    rcases (mem_countDown_four hdvd).mp hi with ⟨hpos, hlt, hi4⟩
    rw [confined_tryOffset hi4 hpos (by omega)]
    exact roundAllowed_congr (mayRead_round_iff hdvd hearlier hi)
  constructor
  · intro h i hi
    rcases (visited_iff hdvd).mp hi with ⟨hmem, hmiss⟩
    exact (hround i hmem).mp (h i hmem hmiss)
  · intro h i hmem hmiss
    exact (hround i hmem).mpr (h i ((visited_iff hdvd).mpr ⟨hmem, hmiss⟩))

/-- The search reads only what it may read exactly when, in every round of the
backward loop it gets to and whose word is confirmed, there is either a vtable
symbol and (on 64 bit) the word points into the object, or no vtable symbol, room
for a pointer before the offset and, as far as the class linker is read, every
word of it in the object or (on 32 bit) confirmed. -/
theorem confined_iff (hruntime : runtime ≠ NULL) (vm handle : Nat) :
    Confined abi runtime [] (searchClassLinkerOffset abi E vm runtime handle).2 ↔
      ∀ jvmOffset, IsLeast {i | IsJvmAt abi E.mem runtime vm i} jvmOffset →
        ∀ i, Visited abi E (classLinkerVtable abi E handle) runtime jvmOffset i →
          RoundAllowed abi E (classLinkerVtable abi E handle) runtime i
            (InRuntimeOrConfirmed abi E (classLinkerVtable abi E handle) runtime jvmOffset i) := by
  cases hjvm : (jvmSearch abi E runtime vm).1 with
  | none =>
      -- the first search reads the object only, and finds nothing
      have hnone := jvmSearch_eq_none_iff.mp hjvm
      rw [searchClassLinkerOffset_of_no_jvm hruntime hnone]
      constructor
      · intro _ j hleast
        exact absurd hleast.1 (hnone j)
      · intro _
        exact confined_jvmSearch
  | some j =>
      -- no probe of the first search can confirm an address for the second
      have hleast := jvmSearch_eq_some_iff.mp hjvm
      have hearlier : ∀ q, Access.probe q true ∉ (jvmSearch abi E runtime vm).2 :=
        fun _ => probe_notMem_jvmSearch
      have hdvd : 4 ∣ j := hleast.1.2.2.1
      have hle : j ≤ 2000 := hleast.1.2.1
      rw [searchClassLinkerOffset_of_jvm hruntime hleast, piecewise_confined.append, List.nil_append,
        confined_backward hdvd hle hearlier]
      constructor
      · rintro ⟨-, hrounds⟩ j' hleast'
        obtain rfl : j' = j := hleast'.unique hleast
        exact hrounds
      · intro h
        exact ⟨confined_jvmSearch, h j hleast⟩

/-- The search of `exampleEnv`, on 32 bit and with a vtable symbol. -/
theorem confined_iff_found :
    let E := exampleEnv 0x7000
    Confined .arm 0x1000 [] (searchClassLinkerOffset .arm E 0x9000 0x1000 1).2 ↔
      ∀ jvmOffset, IsLeast {i | IsJvmAt .arm E.mem 0x1000 0x9000 i} jvmOffset →
        ∀ i, Visited .arm E (classLinkerVtable .arm E 1) 0x1000 jvmOffset i →
          RoundAllowed .arm E (classLinkerVtable .arm E 1) 0x1000 i
            (InRuntimeOrConfirmed .arm E (classLinkerVtable .arm E 1) 0x1000 jvmOffset i) :=
  confined_iff (by decide) 0x9000 1

/-- On 64 bit every word that is read has to start in the object. -/
theorem Confined.inRuntime {earlier accesses : List Access} {a : Nat}
    (h : Confined abi runtime earlier accesses) (hp : pointerSize abi = 8)
    (ha : Access.word a ∈ accesses) : InRuntime abi runtime a := by
  induction accesses generalizing earlier with
  | nil => cases ha
  | cons access rest ih =>
      cases access with
      | word b =>
          rcases confined_word.mp h with ⟨hread, hrest⟩
          rcases List.mem_cons.mp ha with heq | ha
          · obtain rfl : a = b := Access.word.inj heq
            refine (mayRead_iff.mp hread).resolve_right ?_
            rintro ⟨hfour, -⟩
            omega
          · exact ih hrest ha
      | probe q ok =>
          have ha' : Access.word a ∈ rest := by simpa using ha
          exact ih (confined_probe.mp h) ha'

/-- 64-bit, below Android 9: a `Runtime` object at `0x1000` with the `JavaVM`
pointer `0x9000` at offset 200 and a valid pointer at offset 4. -/
def smallOffsetEnv : ArtEnv where
  mem := writeAddr .aarch64 (writeAddr .aarch64 (fun _ => 0) 0x10c8 0x9000) 0x1004 0x5000
  writable _ p := p = 0x5000
  artDlopen _ _ := 1
  artDlsym _ _ := NULL

/-- The search reads a word in front of the `Runtime` object. -/
theorem search_reads_before_runtime :
    ¬ ∀ (E : ArtEnv) (runtime vm handle : Nat), runtime ≠ NULL →
      Confined .aarch64 runtime [] (searchClassLinkerOffset .aarch64 E vm runtime handle).2 := by
  intro h
  have hread : Access.word 0xffc ∈
      (searchClassLinkerOffset .aarch64 smallOffsetEnv 0x9000 0x1000 1).2 := by decide +kernel
  rcases (h smallOffsetEnv 0x1000 0x9000 1 (by decide)).inRuntime rfl hread with ⟨o, ho, heq⟩
  have hspace : addressSpace .aarch64 = 18446744073709551616 := by decide
  unfold addrAdd at heq
  rw [hspace] at heq
  omega

end Yahfa
