import Yahfa.HookMain
import Mathlib.Data.Set.Basic

/-!
# What hooking does to the fields of an `ArtMethod`

Every function of `hook_main.c` that writes to an `ArtMethod` gets one lemma
for each field, over all methods: the method it is called for and all others.
The lemmas hold for layouts in which the three fields lie apart (`FieldsApart`),
which `init` sets up on every level it handles.
-/

namespace Yahfa

open Bytes

variable {abi : Abi} {g : Statics abi} {mmap : Mmap} {mem : Memory} {m t : Nat}

/-- The quick entry point lies behind every other field that is written. -/
structure EntryApart (g : Statics abi) : Prop where
  interpreter : g.offsetEntryPointFromInterpreter = 0 ∨
    g.offsetEntryPointFromInterpreter + pointerSize abi ≤ g.offsetEntryPointFromQuickCompiledCode
  flags : androidApiN ≤ g.sdkVersion →
    g.offsetAccessFlags + 4 ≤ g.offsetEntryPointFromQuickCompiledCode

/-- The flags end before the quick entry point does. -/
def FlagsWithin (g : Statics abi) : Prop :=
  g.offsetAccessFlags + 4 ≤ g.offsetEntryPointFromQuickCompiledCode + pointerSize abi

/-- The fields of an `ArtMethod` lie apart: the flags in the first 8 bytes, the
quick entry point last, and the interpreter entry point, where there is one,
between them. -/
structure FieldsApart (g : Statics abi) : Prop where
  flags_lt : g.offsetAccessFlags + 4 ≤ 8
  le_quick : 8 ≤ g.offsetEntryPointFromQuickCompiledCode
  interpreter : g.offsetEntryPointFromInterpreter = 0 ∨
    (8 ≤ g.offsetEntryPointFromInterpreter ∧
      g.offsetEntryPointFromInterpreter + pointerSize abi ≤
        g.offsetEntryPointFromQuickCompiledCode)

instance : Decidable (FieldsApart g) :=
  decidable_of_iff (_ ∧ _ ∧ _)
    ⟨fun ⟨h₁, h₂, h₃⟩ => ⟨h₁, h₂, h₃⟩, fun ⟨h₁, h₂, h₃⟩ => ⟨h₁, h₂, h₃⟩⟩

theorem FieldsApart.entryApart (hf : FieldsApart g) : EntryApart g where
  interpreter := hf.interpreter.imp id And.right
  flags _ := hf.flags_lt.trans hf.le_quick

theorem FieldsApart.flagsWithin (hf : FieldsApart g) : FlagsWithin g :=
  (hf.flags_lt.trans hf.le_quick).trans (Nat.le_add_right _ _)

/-- `init` sets up such a layout on every level it handles. -/
theorem fieldsApart_initialized {sdkVersion : Int} (h : sdkVersion ∈ handledLevels) :
    FieldsApart (initialized abi sdkVersion) := by
  revert sdkVersion
  cases abi <;> decide +kernel

/-- On a level without a `case` every offset stays 0 and every flag constant
stays as it was loaded. -/
theorem initialized_unhandled {sdkVersion : Int} (h : sdkVersion ∉ handledLevels) :
    initialized abi sdkVersion =
      { Statics.initial abi with
        sdkVersion := sdkVersion
        trampoline := setupTrampoline abi (trampoline abi) 0 } := by
  simp only [handledLevels, List.mem_cons, List.not_mem_nil, or_false, not_or] at h
  rcases h with ⟨h₁, h₂, h₃, h₄, h₅, h₆, h₇, h₈, h₉, h₁₀, h₁₁, h₁₂, h₁₃⟩
  have hswitch : ∀ g : Statics abi, initSwitch sdkVersion g = g := fun g => by
    rw [initSwitch, if_neg (by simp [*]), if_neg h₄, if_neg (by simp [*]), if_neg h₇, if_neg h₈,
      if_neg (by simp [*]), if_neg h₁₁, if_neg h₁₂, if_neg h₁₃]
  rw [initialized, init, hswitch]
  rfl

/-- Below N no flags are written, so that the entry point is safe on every level. -/
theorem entryApart_initialized {sdkVersion : Int}
    (h : sdkVersion ∈ handledLevels ∨ sdkVersion < androidApiN) :
    EntryApart (initialized abi sdkVersion) := by
  by_cases hsdk : sdkVersion ∈ handledLevels
  · exact (fieldsApart_initialized hsdk).entryApart
  · rw [initialized_unhandled hsdk]
    exact ⟨Or.inl rfl, fun hn => absurd hn (not_le.mpr (h.resolve_left hsdk))⟩

theorem flagsWithin_initialized (sdkVersion : Int) : FlagsWithin (initialized abi sdkVersion) := by
  by_cases hsdk : sdkVersion ∈ handledLevels
  · exact (fieldsApart_initialized hsdk).flagsWithin
  · rw [initialized_unhandled hsdk, FlagsWithin]
    rcases pointerSize_cases abi with hp | hp <;> simp [Statics.initial, hp]

/-- Two methods are the same one, or their `ArtMethod`s do not overlap. -/
def SameOrApart (g : Statics abi) (m t : Nat) : Prop :=
  m = t ∨ (g.methodSpan m).Apart (g.methodSpan t)

theorem SameOrApart.symm (h : SameOrApart g m t) : SameOrApart g t m :=
  h.imp Eq.symm Span.Apart.symm

/-! ## One field written, one field read -/

section Fields

theorem interpreterEntryPoint_lt (mem : Memory) (m : Nat) :
    g.interpreterEntryPoint mem m < addressSpace abi := readAddr_lt _ _ _

theorem entryPoint_setEntryPoint (h : SameOrApart g m t) {v : Nat} (hv : v < addressSpace abi) :
    g.entryPoint (g.setEntryPoint mem t v) m = if m = t then v else g.entryPoint mem m := by
  split
  · next heq =>
    subst heq
    exact readWord_writeWord_of_lt hv
  · next hne =>
    have happ := h.resolve_left hne
    refine readWord_writeWord_of_apart ?_
    simp only [Span.Apart, Statics.methodSpan] at *
    omega

theorem entryPoint_setInterpreterEntryPoint (hf : EntryApart g) (h : SameOrApart g m t)
    (hi : g.offsetEntryPointFromInterpreter ≠ 0) {v : Nat} :
    g.entryPoint (g.setInterpreterEntryPoint mem t v) m = g.entryPoint mem m := by
  have hlast := hf.interpreter.resolve_left hi
  refine readWord_writeWord_of_apart ?_
  obtain rfl | happ := h <;> simp only [Span.Apart, Statics.methodSpan] at * <;> omega

theorem entryPoint_setFlags (hf : EntryApart g) (hn : androidApiN ≤ g.sdkVersion)
    (h : SameOrApart g m t) {f : BitVec 32} :
    g.entryPoint (g.setFlags mem t f) m = g.entryPoint mem m := by
  have hle := hf.flags hn
  refine readWord_writeWord_of_apart ?_
  obtain rfl | happ := h <;> simp only [Span.Apart, Statics.methodSpan] at * <;> omega

theorem interpreterEntryPoint_setEntryPoint (hf : FieldsApart g) (h : SameOrApart g m t)
    (hi : g.offsetEntryPointFromInterpreter ≠ 0) {v : Nat} :
    g.interpreterEntryPoint (g.setEntryPoint mem t v) m = g.interpreterEntryPoint mem m := by
  rcases hf.interpreter.resolve_left hi with ⟨-, hlast⟩
  refine readWord_writeWord_of_apart ?_
  obtain rfl | happ := h <;> simp only [Span.Apart, Statics.methodSpan] at * <;> omega

theorem interpreterEntryPoint_setInterpreterEntryPoint (hf : FieldsApart g)
    (h : SameOrApart g m t) (hi : g.offsetEntryPointFromInterpreter ≠ 0) {v : Nat}
    (hv : v < addressSpace abi) :
    g.interpreterEntryPoint (g.setInterpreterEntryPoint mem t v) m =
      if m = t then v else g.interpreterEntryPoint mem m := by
  rcases hf.interpreter.resolve_left hi with ⟨-, hlast⟩
  split
  · next heq =>
    subst heq
    exact readWord_writeWord_of_lt hv
  · next hne =>
    have happ := h.resolve_left hne
    refine readWord_writeWord_of_apart ?_
    simp only [Span.Apart, Statics.methodSpan] at *
    omega

theorem interpreterEntryPoint_setFlags (hf : FieldsApart g) (h : SameOrApart g m t)
    (hi : g.offsetEntryPointFromInterpreter ≠ 0) {f : BitVec 32} :
    g.interpreterEntryPoint (g.setFlags mem t f) m = g.interpreterEntryPoint mem m := by
  rcases hf.interpreter.resolve_left hi with ⟨hfirst, hlast⟩
  have hlt := hf.flags_lt
  refine readWord_writeWord_of_apart ?_
  obtain rfl | happ := h <;> simp only [Span.Apart, Statics.methodSpan] at * <;> omega

theorem getFlags_setEntryPoint (hf : FieldsApart g) (h : SameOrApart g m t) {v : Nat} :
    g.getFlags (g.setEntryPoint mem t v) m = g.getFlags mem m := by
  have hlt := hf.flags_lt
  have hle := hf.le_quick
  refine congrArg (BitVec.ofNat 32) (readWord_writeWord_of_apart ?_)
  obtain rfl | happ := h <;> simp only [Span.Apart, Statics.methodSpan] at * <;> omega

theorem getFlags_setInterpreterEntryPoint (hf : FieldsApart g) (h : SameOrApart g m t)
    (hi : g.offsetEntryPointFromInterpreter ≠ 0) {v : Nat} :
    g.getFlags (g.setInterpreterEntryPoint mem t v) m = g.getFlags mem m := by
  rcases hf.interpreter.resolve_left hi with ⟨hfirst, hlast⟩
  have hlt := hf.flags_lt
  refine congrArg (BitVec.ofNat 32) (readWord_writeWord_of_apart ?_)
  obtain rfl | happ := h <;> simp only [Span.Apart, Statics.methodSpan] at * <;> omega

theorem getFlags_setFlags (hf : FlagsWithin g) (h : SameOrApart g m t) {f : BitVec 32} :
    g.getFlags (g.setFlags mem t f) m = if m = t then f else g.getFlags mem m := by
  split
  · next heq =>
    subst heq
    exact read32_write32 _ _ _
  · next hne =>
    have happ := h.resolve_left hne
    refine congrArg (BitVec.ofNat 32) (readWord_writeWord_of_apart ?_)
    simp only [FlagsWithin, Span.Apart, Statics.methodSpan] at *
    omega

/-! A field depends on the bytes of its method only. -/

theorem entryPoint_congr {mem' : Memory}
    (h : ∀ a, (g.methodSpan m).Contains a → mem a = mem' a) :
    g.entryPoint mem m = g.entryPoint mem' m := by
  refine readWord_congr fun a ha => h a ?_
  simp only [Span.Contains, Statics.methodSpan] at *
  omega

theorem interpreterEntryPoint_congr (hf : FieldsApart g)
    (hi : g.offsetEntryPointFromInterpreter ≠ 0) {mem' : Memory}
    (h : ∀ a, (g.methodSpan m).Contains a → mem a = mem' a) :
    g.interpreterEntryPoint mem m = g.interpreterEntryPoint mem' m := by
  rcases hf.interpreter.resolve_left hi with ⟨-, hlast⟩
  refine readWord_congr fun a ha => h a ?_
  simp only [Span.Contains, Statics.methodSpan] at *
  omega

theorem getFlags_congr (hf : FieldsApart g) {mem' : Memory}
    (h : ∀ a, (g.methodSpan m).Contains a → mem a = mem' a) :
    g.getFlags mem m = g.getFlags mem' m := by
  have hlt := hf.flags_lt
  have hle := hf.le_quick
  refine congrArg (BitVec.ofNat 32) (readWord_congr fun a ha => h a ?_)
  simp only [Span.Contains, Statics.methodSpan] at *
  omega

/-- Stores that stay away from a method leave all of its bytes alone. -/
theorem applyStores_method {ss : List Store} (h : ∀ s ∈ ss, s.span.Apart (g.methodSpan m)) {a : Nat}
    (ha : (g.methodSpan m).Contains a) : applyStores mem ss a = mem a :=
  applyStores_of_disjoint fun s hs => (h s hs).symm.not_contains ha

end Fields

/-! ## `setNonCompilable` and `redirect` -/

theorem entryPoint_setNonCompilable (hf : EntryApart g) (h : SameOrApart g m t) :
    g.entryPoint (setNonCompilable g mem t) m = g.entryPoint mem m := by
  rw [setNonCompilable]
  split
  · rfl
  · next hge => exact entryPoint_setFlags hf (not_lt.mp hge) h

theorem interpreterEntryPoint_setNonCompilable (hf : FieldsApart g) (h : SameOrApart g m t)
    (hi : g.offsetEntryPointFromInterpreter ≠ 0) :
    g.interpreterEntryPoint (setNonCompilable g mem t) m = g.interpreterEntryPoint mem m := by
  rw [setNonCompilable]
  split
  · rfl
  · exact interpreterEntryPoint_setFlags hf h hi

theorem getFlags_setNonCompilable (hf : FlagsWithin g) (h : SameOrApart g m t) :
    g.getFlags (setNonCompilable g mem t) m =
      if androidApiN ≤ g.sdkVersion ∧ m = t then g.nonCompilable (g.getFlags mem m)
      else g.getFlags mem m := by
  rw [setNonCompilable]
  split
  · next hlt => rw [if_neg fun hc => absurd hc.1 (by omega)]
  · next hge =>
    rw [getFlags_setFlags hf h]
    by_cases heq : m = t
    · subst heq
      rw [if_pos rfl, if_pos ⟨by omega, rfl⟩]
    · rw [if_neg heq, if_neg fun hc => heq hc.2]

variable {u v : Nat}

theorem entryPoint_redirect (hf : EntryApart g) (h : SameOrApart g m t)
    (hv : v < addressSpace abi) :
    g.entryPoint (redirect g mem t u v) m = if m = t then v else g.entryPoint mem m := by
  have hentries : g.entryPoint (redirectEntryPoints g mem t u v) m =
      if m = t then v else g.entryPoint mem m := by
    rw [redirectEntryPoints, ← entryPoint_setEntryPoint h hv]
    split
    · next hi => exact entryPoint_setInterpreterEntryPoint hf h hi
    · rfl
  rw [redirect]
  split
  · next hge =>
    have hn : androidApiN ≤ g.sdkVersion := le_trans (by decide) hge
    rw [entryPoint_setFlags hf hn h, hentries]
  · exact hentries

theorem interpreterEntryPoint_redirect (hf : FieldsApart g) (h : SameOrApart g m t)
    (hu : SameOrApart g u t) (hi : g.offsetEntryPointFromInterpreter ≠ 0) :
    g.interpreterEntryPoint (redirect g mem t u v) m =
      if m = t then g.interpreterEntryPoint mem u else g.interpreterEntryPoint mem m := by
  have hentries : g.interpreterEntryPoint (redirectEntryPoints g mem t u v) m =
      if m = t then g.interpreterEntryPoint mem u else g.interpreterEntryPoint mem m := by
    simp only [redirectEntryPoints, if_pos hi]
    rw [interpreterEntryPoint_setInterpreterEntryPoint hf h hi (interpreterEntryPoint_lt _ _),
      interpreterEntryPoint_setEntryPoint hf hu hi, interpreterEntryPoint_setEntryPoint hf h hi]
  rw [redirect]
  split
  · rw [interpreterEntryPoint_setFlags hf h hi, hentries]
  · exact hentries

theorem getFlags_redirect (hf : FieldsApart g) (h : SameOrApart g m t) :
    g.getFlags (redirect g mem t u v) m =
      if androidApiO ≤ g.sdkVersion ∧ m = t then g.replaced (g.getFlags mem m)
      else g.getFlags mem m := by
  have hentries : ∀ m', SameOrApart g m' t →
      g.getFlags (redirectEntryPoints g mem t u v) m' = g.getFlags mem m' := by
    intro m' h'
    rw [redirectEntryPoints]
    split
    · next hi => rw [getFlags_setInterpreterEntryPoint hf h' hi, getFlags_setEntryPoint hf h']
    · exact getFlags_setEntryPoint hf h'
  rw [redirect]
  split
  · next hge =>
    rw [getFlags_setFlags hf.flagsWithin h]
    by_cases heq : m = t
    · subst heq
      rw [if_pos rfl, if_pos ⟨hge, rfl⟩, hentries m (Or.inl rfl)]
    · rw [if_neg heq, if_neg fun hc => heq hc.2, hentries m h]
  · next hlt => rw [if_neg fun hc => hlt hc.1, hentries m h]

/-! ## `setBothNonCompilable` -/

section SetBoth

variable {target backup : Nat}

/-- `setBothNonCompilable` is `setNonCompilable` for the target and, if there is
one, the backup: below N both do nothing. -/
theorem setBothNonCompilable_eq :
    setBothNonCompilable g mem target backup =
      if backup = NULL then setNonCompilable g mem target
      else setNonCompilable g (setNonCompilable g mem target) backup := by
  by_cases hsdk : g.sdkVersion < androidApiN
  · simp [setBothNonCompilable, setNonCompilable, hsdk]
  · by_cases hb : backup = NULL <;> simp [setBothNonCompilable, not_lt.mp hsdk, hb]

/-- Setting the flags of `setNonCompilable` twice is setting them once. -/
theorem nonCompilable_nonCompilable (f : BitVec 32) :
    g.nonCompilable (g.nonCompilable f) = g.nonCompilable f := by
  simp only [Statics.nonCompilable]
  split
  · ext i
    simp only [BitVec.getElem_and, BitVec.getElem_or, BitVec.getElem_not]
    cases f[i] <;> cases g.kAccCompileDontBother[i] <;> cases g.kAccPreCompiled[i] <;> rfl
  · rw [BitVec.or_assoc, BitVec.or_self]

variable (ht : SameOrApart g m target) (hb : backup ≠ NULL → SameOrApart g m backup)
include ht hb

theorem entryPoint_setBothNonCompilable (hf : EntryApart g) :
    g.entryPoint (setBothNonCompilable g mem target backup) m = g.entryPoint mem m := by
  rw [setBothNonCompilable_eq]
  split
  · exact entryPoint_setNonCompilable hf ht
  · next hne => rw [entryPoint_setNonCompilable hf (hb hne), entryPoint_setNonCompilable hf ht]

theorem interpreterEntryPoint_setBothNonCompilable (hf : FieldsApart g)
    (hi : g.offsetEntryPointFromInterpreter ≠ 0) :
    g.interpreterEntryPoint (setBothNonCompilable g mem target backup) m =
      g.interpreterEntryPoint mem m := by
  rw [setBothNonCompilable_eq]
  split
  · exact interpreterEntryPoint_setNonCompilable hf ht hi
  · next hne =>
    rw [interpreterEntryPoint_setNonCompilable hf (hb hne) hi,
      interpreterEntryPoint_setNonCompilable hf ht hi]

theorem getFlags_setBothNonCompilable (hf : FlagsWithin g) :
    g.getFlags (setBothNonCompilable g mem target backup) m =
      if androidApiN ≤ g.sdkVersion ∧ (m = target ∨ (backup ≠ NULL ∧ m = backup)) then
        g.nonCompilable (g.getFlags mem m)
      else g.getFlags mem m := by
  rw [setBothNonCompilable_eq]
  by_cases hne : backup = NULL
  · rw [if_pos hne, getFlags_setNonCompilable hf ht]
    simp [hne]
  · rw [if_neg hne, getFlags_setNonCompilable hf (hb hne), getFlags_setNonCompilable hf ht]
    by_cases hsdk : androidApiN ≤ g.sdkVersion
    · simp only [hsdk, true_and, hne, ne_eq, not_false_eq_true]
      by_cases hmt : m = target <;> by_cases hmb : m = backup
      · rw [if_pos hmb, if_pos hmt, if_pos (Or.inl hmt), nonCompilable_nonCompilable]
      · rw [if_neg hmb, if_pos hmt, if_pos (Or.inl hmt)]
      · rw [if_pos hmb, if_neg hmt, if_pos (Or.inr hmb)]
      · rw [if_neg hmb, if_neg hmt, if_neg (by simp [hmt, hmb])]
    · simp [hsdk]

end SetBoth

/-! ## `replaceMethod` -/

section Replace

variable {w : World}

theorem storeAll_eq_some {ss : List Store} (h : ∀ s ∈ ss, s.addr ≠ NULL) :
    storeAll mem ss = some (applyStores mem ss) := by
  rw [storeAll, if_neg]
  rintro ⟨s, hs, hnull⟩
  exact h s hs hnull

/-- `replaceMethod`, once `genTrampoline` is known. -/
theorem replaceMethod_eq {g : Statics abi} {mmap : Mmap} {t u : Nat} {isBackup : Bool}
    {r : GenResult} (hr : genTrampoline abi g.trampoline mmap w.pool u
      (hardcodedEntrypoint g w.mem u isBackup) = r) :
    replaceMethod g mmap w t u isBackup = (storeAll w.mem r.stores).map fun mem =>
      if r.ret ≠ NULL then (0, ⟨redirect g mem t u r.ret, r.pool, r.made.toList ++ w.made⟩)
      else (1, ⟨mem, r.pool, r.made.toList ++ w.made⟩) := by
  subst hr
  rfl

/-- It lays a trampoline down anywhere but at the null pointer. -/
theorem replaceMethod_laid {g : Statics abi} {mmap : Mmap} {t u : Nat} {isBackup : Bool}
    {p : Pool} (hp : p.currentTrampolineOff ≠ NULL) :
    let e := hardcodedEntrypoint g w.mem u isBackup
    let r := genTrampoline abi g.trampoline mmap w.pool u e
    r = layTrampoline abi g.trampoline p u e →
    ∃ T : Trampoline, T.base ≠ NULL ∧ T.toMethod = u ∧ T.entrypoint = e ∧ r.made = some T ∧
      (∀ s ∈ r.stores, s.span.Within (T.span abi)) ∧
      replaceMethod g mmap w t u isBackup =
        some (0, ⟨redirect g (applyStores w.mem r.stores) t u T.addr, r.pool, T :: w.made⟩) := by
  intro e r hr
  let T : Trampoline := ⟨p.currentTrampolineOff, u, e⟩
  have hmade : r.made = some T := by
    rw [hr]
    rfl
  have hret : r.ret = T.addr := by
    rw [hr]
    rfl
  have hstores : ∀ s ∈ r.stores, s.span.Within (T.span abi) := by
    rw [hr]
    exact fun s hs => layTrampoline_stores_within hs
  have hnull : ∀ s ∈ r.stores, s.addr ≠ NULL := by
    intro s hs h0
    have hle : p.currentTrampolineOff ≤ s.addr := (hstores s hs).1
    simp only [NULL] at *
    omega
  have haddr : T.addr ≠ NULL := by
    simp only [T, Trampoline.addr, NULL] at *
    split <;> omega
  refine ⟨T, hp, rfl, rfl, hmade, hstores, ?_⟩
  have heq : genTrampoline abi g.trampoline mmap w.pool u e = r := rfl
  rw [replaceMethod_eq heq, storeAll_eq_some hnull]
  simp [hret, haddr, hmade]

/-- The three ways `replaceMethod` can go: it lays a trampoline down and
redirects `fromMethod` to it; no trampoline can be allocated and nothing but the
pool changes; or it faults, because there seems to be room at the null pointer. -/
theorem replaceMethod_cases (g : Statics abi) (mmap : Mmap) (w : World) (t u : Nat)
    (isBackup : Bool) :
    let e := hardcodedEntrypoint g w.mem u isBackup
    let r := genTrampoline abi g.trampoline mmap w.pool u e
    ((w.pool.currentTrampolineOff + trampolineSize abi e ≤ w.pool.trampolineSpaceEnd →
        w.pool.currentTrampolineOff ≠ NULL) ∧
      ∃ T : Trampoline, T.base ≠ NULL ∧ T.toMethod = u ∧ T.entrypoint = e ∧ r.made = some T ∧
        (∀ s ∈ r.stores, s.span.Within (T.span abi)) ∧
        replaceMethod g mmap w t u isBackup =
          some (0, ⟨redirect g (applyStores w.mem r.stores) t u T.addr, r.pool, T :: w.made⟩)) ∨
    (w.pool.trampolineSpaceEnd < w.pool.currentTrampolineOff + trampolineSize abi e ∧
      (∀ b, mmap w.pool.mmaps = some b → b = NULL) ∧ r.made = none ∧
      replaceMethod g mmap w t u isBackup =
        some (1, ⟨w.mem, ⟨NULL, w.pool.trampolineSpaceEnd, w.pool.mmaps + 1⟩, w.made⟩)) ∨
    (w.pool.currentTrampolineOff + trampolineSize abi e ≤ w.pool.trampolineSpaceEnd ∧
      w.pool.currentTrampolineOff = NULL ∧ replaceMethod g mmap w t u isBackup = none) := by
  intro e r
  have heq : genTrampoline abi g.trampoline mmap w.pool u e = r := rfl
  rcases genTrampoline_cases g.trampoline mmap w.pool u e with
    ⟨hroom, hr⟩ | ⟨hno, hfail, hr⟩ | ⟨b, hno, hb, hne, hr⟩
  · by_cases h0 : w.pool.currentTrampolineOff = NULL
    · refine Or.inr (Or.inr ⟨hroom, h0, ?_⟩)
      -- the first store goes to the null pointer
      rcases layTrampoline_stores_head g.trampoline w.pool u e with ⟨s, rest, hstores, hspan⟩
      have haddr : s.addr = NULL := by
        have hbase : s.span.base = w.pool.currentTrampolineOff := by rw [hspan]
        exact hbase.trans h0
      have hcons : r.stores = s :: rest := (congrArg GenResult.stores hr).trans hstores
      have hfault : storeAll w.mem r.stores = none := by
        rw [hcons, storeAll, if_pos ⟨s, List.mem_cons_self, haddr⟩]
      rw [replaceMethod_eq heq, hfault]
      rfl
    · exact Or.inl ⟨fun _ => h0, replaceMethod_laid h0 hr⟩
  · have hr' : r = _ := hr
    refine Or.inr (Or.inl ⟨hno, hfail, by rw [hr'], ?_⟩)
    rw [replaceMethod_eq heq, hr']
    simp [storeAll]
  · exact Or.inl ⟨fun hroom => absurd hno (not_lt.mpr hroom), replaceMethod_laid hne hr⟩

/-- The `mmap` call brings no block. -/
def NoBlock (mmap : Mmap) (k : Nat) : Prop := ∀ b, mmap k = some b → b = NULL

/-- Without a block in use and without a new one `replaceMethod` changes nothing
but the count of `mmap` calls. -/
theorem replaceMethod_of_virgin (hv : Virgin w.pool) (hfail : NoBlock mmap w.pool.mmaps)
    (t u : Nat) (isBackup : Bool) :
    replaceMethod g mmap w t u isBackup =
      some (1, ⟨w.mem, ⟨NULL, NULL, w.pool.mmaps + 1⟩, w.made⟩) := by
  have hpos := trampolineSize_pos abi (hardcodedEntrypoint g w.mem u isBackup)
  have hend : w.pool.trampolineSpaceEnd = 0 := hv.2
  rcases replaceMethod_cases g mmap w t u isBackup with
    ⟨-, T, -, -, -, hmade, -⟩ | ⟨-, -, -, heq⟩ | ⟨hroom, -⟩
  · obtain ⟨hroom, -⟩ | ⟨-, -, hr⟩ | ⟨b, -, hb, hne, -⟩ :=
      genTrampoline_cases g.trampoline mmap w.pool u (hardcodedEntrypoint g w.mem u isBackup)
    · omega
    · simp [hr] at hmade
    · exact absurd (hfail b hb) hne
  · rw [heq, hv.2]
  · omega

/-- On a torn pool `replaceMethod` writes through the null pointer. -/
theorem replaceMethod_of_torn (ht : Torn w.pool) (hend : EndOk mmap w.pool) (t u : Nat)
    (isBackup : Bool) : replaceMethod g mmap w t u isBackup = none := by
  have hroom := hend.room_of_torn ht abi (hardcodedEntrypoint g w.mem u isBackup)
  rcases replaceMethod_cases g mmap w t u isBackup with ⟨hne, -⟩ | ⟨hno, -⟩ | ⟨-, -, heq⟩
  · exact absurd ht.1 (hne hroom)
  · exact absurd hroom (not_le.mpr hno)
  · exact heq

end Replace

/-! ## Methods and blocks that lie apart -/

/-- What ART guarantees about where the methods `M` are, and the kernel about
the blocks `mmap` returns. -/
structure Placement (g : Statics abi) (mmap : Mmap) (M : Set Nat) : Prop where
  method_ne_null : ∀ m ∈ M, m ≠ NULL
  methods_apart : ∀ m ∈ M, ∀ t ∈ M, SameOrApart g m t
  block_ne_null : NonNullBlocks mmap
  block_le : ∀ k b, mmap k = some b → b + trampolineSpaceSize ≤ addressSpace abi
  blocks_apart : ApartBlocks mmap
  block_method : ∀ k b, mmap k = some b → ∀ m ∈ M, (blockSpan b).Apart (g.methodSpan m)

theorem Placement.mono {mmap' : Mmap} {M M' : Set Nat} (h : Placement g mmap M) (hsub : M' ⊆ M)
    (hmmap : ∀ k b, mmap' k = some b → mmap k = some b) : Placement g mmap' M' where
  method_ne_null m hm := h.method_ne_null m (hsub hm)
  methods_apart m hm t ht := h.methods_apart m (hsub hm) t (hsub ht)
  block_ne_null k b hb := h.block_ne_null k b (hmmap k b hb)
  block_le k b hb := h.block_le k b (hmmap k b hb)
  blocks_apart j k b c hjk hb hc := h.blocks_apart j k b c hjk (hmmap j b hb) (hmmap k c hc)
  block_method k b hb m hm := h.block_method k b (hmmap k b hb) m (hsub hm)

/-- The beginnings of the pages below `0x10000`. -/
def pages : Set Nat := {m | 0x1000 ∣ m ∧ 0 < m ∧ m < 0x10000}

instance (m : Nat) : Decidable (m ∈ pages) := inferInstanceAs (Decidable (_ ∧ _ ∧ _))

/-- One method on each page, and up to sixteen blocks above them. -/
theorem placement_pages {n : Nat} (hn : n ≤ 16)
    (hsize : g.offsetEntryPointFromQuickCompiledCode + pointerSize abi ≤ 0x1000) :
    Placement g (mmapRow 0x10000 n) pages := by
  have hspace : 0x20000 ≤ addressSpace abi := by cases abi <;> decide
  refine ⟨?_, ?_, mmapRow_nonNull (by decide), ?_, mmapRow_apart, ?_⟩
  · exact fun m hm => Nat.ne_of_gt hm.2.1
  · rintro m ⟨⟨i, rfl⟩, -, -⟩ t ⟨⟨j, rfl⟩, -, -⟩
    simp only [SameOrApart, Span.Apart, Statics.methodSpan]
    omega
  · intro k b hb
    rcases mmapRow_eq_some hb with ⟨hk, rfl⟩
    simp only [trampolineSpaceSize]
    omega
  · rintro k b hb m ⟨⟨i, rfl⟩, -, hlt⟩
    rcases mmapRow_eq_some hb with ⟨hk, rfl⟩
    simp only [Span.Apart, blockSpan, Statics.methodSpan, trampolineSpaceSize]
    omega

/-- `fromMethod` has been redirected to the new trampoline `T`; on the bytes of
the methods, nothing but the writes of `redirect` has happened. -/
structure Redirects (g : Statics abi) (M : Set Nat) (w : World) (fromMethod : Nat) (T : Trampoline)
    (w' : World) : Prop where
  made : w'.made = T :: w.made
  addr_ne_null : T.addr ≠ NULL
  addr_lt : T.addr < addressSpace abi
  mem : ∃ mem, (∀ m ∈ M, ∀ a, (g.methodSpan m).Contains a → mem a = w.mem a) ∧
    w'.mem = redirect g mem fromMethod T.toMethod T.addr

section Spec

variable {M : Set Nat} {w w' : World} {u r : Nat} {isBackup : Bool} {T : Trampoline}

/-- Execution starts behind the header, inside the trampoline. -/
theorem Trampoline.contains_addr (t : Trampoline) : (t.span abi).Contains t.addr := by
  have hpos := trampolineSize_pos abi t.entrypoint
  by_cases he : t.entrypoint = NULL
  · have hsize : 4 < trampolineSize abi t.entrypoint := by
      rw [he]
      cases abi <;> decide
    simp only [Span.Contains, Trampoline.span, Trampoline.addr, if_pos he]
    omega
  · simp only [Span.Contains, Trampoline.span, Trampoline.addr, if_neg he]
    omega

/-- The address of a trampoline lies in a block. -/
theorem PoolInv.addr_mapped {p : Pool} {ts : List Trampoline} (h : PoolInv abi mmap p ts)
    (hT : T ∈ ts) : ∃ k < p.mmaps, ∃ b, mmap k = some b ∧ b ≠ NULL ∧
      (blockSpan b).Contains T.addr := by
  rcases h.mapped T hT with ⟨k, hk, b, hb, hne, hwithin, -⟩
  exact ⟨k, hk, b, hb, hne, hwithin.contains T.contains_addr⟩

theorem PoolInv.addr_ne_null {p : Pool} {ts : List Trampoline} (h : PoolInv abi mmap p ts)
    (hT : T ∈ ts) : T.addr ≠ NULL := by
  rcases h.addr_mapped hT with ⟨-, -, b, -, hne, hle, -⟩
  simp only [blockSpan, NULL] at *
  omega

/-- On an intact pool a successful `replaceMethod` redirects and keeps the pool
invariant. -/
theorem PoolInv.replaceMethod {ts : List Trampoline} (hp : Placement g mmap M)
    (h : PoolInv abi mmap w.pool ts)
    (hr : replaceMethod g mmap w t u isBackup = some (0, w')) :
    ∃ T : Trampoline, T.toMethod = u ∧ T.entrypoint = hardcodedEntrypoint g w.mem u isBackup ∧
      Redirects g M w t T w' ∧ PoolInv abi mmap w'.pool (T :: ts) := by
  rcases replaceMethod_cases g mmap w t u isBackup with
    ⟨-, T, -, rfl, he, hmade, hstores, heq⟩ | ⟨-, -, -, heq⟩ | ⟨-, -, heq⟩
  · obtain rfl : _ = w' := by simpa using heq.symm.trans hr
    -- the trampoline that was made is the one the invariant speaks of
    have hpool : PoolInv abi mmap (genTrampoline abi g.trampoline mmap w.pool T.toMethod
        (hardcodedEntrypoint g w.mem T.toMethod isBackup)).pool (T :: ts) := by
      obtain ⟨base, hlays⟩ | ⟨-, hfail⟩ := h.step hp.blocks_apart g.trampoline T.toMethod
        (hardcodedEntrypoint g w.mem T.toMethod isBackup)
      · exact Option.some.inj (hlays.made.symm.trans hmade) ▸ hlays.inv
      · simp [hfail] at hmade
    rcases hpool.mapped T List.mem_cons_self with ⟨k, -, b, hb, -, hwithin, -⟩
    refine ⟨T, rfl, he, ⟨rfl, hpool.addr_ne_null List.mem_cons_self, ?_, _, ?_, rfl⟩, hpool⟩
    · exact lt_of_lt_of_le (hwithin.contains T.contains_addr).2 (hp.block_le k b hb)
    · intro m hm a ha
      -- the stores of the trampoline stay in its block, apart from the methods
      refine applyStores_method (fun s hs => ?_) ha
      exact (hp.block_method k b hb m hm).of_within ((hstores s hs).trans hwithin)
        ⟨le_refl _, le_refl _⟩
  · simp [heq] at hr
  · simp [heq] at hr

/-- What `replaceMethod` does on any pool that can arise: it redirects, or
nothing but the pool changes. On a torn pool it does not return. -/
theorem PoolOk.replaceMethod (hp : Placement g mmap M) (h : PoolOk abi mmap w.pool)
    (hr : replaceMethod g mmap w t u isBackup = some (r, w')) :
    PoolOk abi mmap w'.pool ∧
    ((r = 0 ∧ ∃ T : Trampoline, T.toMethod = u ∧
        T.entrypoint = hardcodedEntrypoint g w.mem u isBackup ∧ Redirects g M w t T w') ∨
      (r = 1 ∧ w.pool.trampolineSpaceEnd < w.pool.currentTrampolineOff +
          trampolineSize abi (hardcodedEntrypoint g w.mem u isBackup) ∧
        NoBlock mmap w.pool.mmaps ∧
        w' = ⟨w.mem, ⟨NULL, w.pool.trampolineSpaceEnd, w.pool.mmaps + 1⟩, w.made⟩)) := by
  rcases replaceMethod_cases g mmap w t u isBackup with
    ⟨-, T, -, -, -, -, -, heq⟩ | ⟨hno, hfail, -, heq⟩ | ⟨-, -, heq⟩
  · obtain ⟨rfl, -⟩ : 0 = r ∧ _ := by simpa using heq.symm.trans hr
    rcases h with hintact | ⟨htorn, hend⟩
    · rcases (poolInv_nil hintact).replaceMethod hp hr with ⟨T, hu, he, hred, hinv⟩
      exact ⟨Or.inl hinv.intact, Or.inl ⟨rfl, T, hu, he, hred⟩⟩
    · simp [replaceMethod_of_torn htorn hend] at hr
  · obtain ⟨rfl, rfl⟩ : 1 = r ∧ _ = w' := by simpa using heq.symm.trans hr
    exact ⟨h.fail, Or.inr ⟨rfl, hno, hfail, rfl⟩⟩
  · simp [heq] at hr

namespace Redirects

variable (h : Redirects g M w t T w') (hp : Placement g mmap M)
include h hp

theorem entryPoint (hf : EntryApart g) {m : Nat} (ht : t ∈ M) (hm : m ∈ M) :
    g.entryPoint w'.mem m = if m = t then T.addr else g.entryPoint w.mem m := by
  rcases h.mem with ⟨mem, hagree, hmem⟩
  rw [hmem, entryPoint_redirect hf (hp.methods_apart m hm t ht) h.addr_lt,
    entryPoint_congr (hagree m hm)]

theorem interpreterEntryPoint (hf : FieldsApart g) {m : Nat} (ht : t ∈ M) (hm : m ∈ M)
    (hu : T.toMethod ∈ M) (hi : g.offsetEntryPointFromInterpreter ≠ 0) :
    g.interpreterEntryPoint w'.mem m =
      if m = t then g.interpreterEntryPoint w.mem T.toMethod
      else g.interpreterEntryPoint w.mem m := by
  rcases h.mem with ⟨mem, hagree, hmem⟩
  rw [hmem, interpreterEntryPoint_redirect hf (hp.methods_apart m hm t ht)
      (hp.methods_apart _ hu t ht) hi,
    interpreterEntryPoint_congr hf hi (hagree m hm),
    interpreterEntryPoint_congr hf hi (hagree _ hu)]

theorem getFlags (hf : FieldsApart g) {m : Nat} (ht : t ∈ M) (hm : m ∈ M) :
    g.getFlags w'.mem m =
      if androidApiO ≤ g.sdkVersion ∧ m = t then g.replaced (g.getFlags w.mem m)
      else g.getFlags w.mem m := by
  rcases h.mem with ⟨mem, hagree, hmem⟩
  rw [hmem, getFlags_redirect hf (hp.methods_apart m hm t ht), getFlags_congr hf (hagree m hm)]

end Redirects

end Spec

/-! ## `doBackupAndHook` -/

/-- The arguments of a `doBackupAndHook` call; a null backup is none. -/
structure HookCall where
  targetMethod : Nat
  hookMethod : Nat
  backupMethod : Nat
deriving DecidableEq, Repr

/-- The arguments are methods. -/
def HookCall.Of (M : Set Nat) (c : HookCall) : Prop :=
  c.targetMethod ∈ M ∧ c.hookMethod ∈ M ∧ (c.backupMethod ≠ NULL → c.backupMethod ∈ M)

/-- `doBackupAndHook` on the arguments of a call. -/
def HookCall.exec (g : Statics abi) (mmap : Mmap) (w : World) (c : HookCall) :
    Option (Nat × World) :=
  doBackupAndHook g mmap w c.targetMethod c.hookMethod c.backupMethod

/-- The world after the first step of `doBackupAndHook`. -/
def HookCall.prepare (g : Statics abi) (w : World) (c : HookCall) : World :=
  { w with mem := setBothNonCompilable g w.mem c.targetMethod c.backupMethod }

/-- The second step of `doBackupAndHook`, for the backup. -/
def HookCall.backUp (g : Statics abi) (mmap : Mmap) (w : World) (c : HookCall) :
    Option (Nat × World) :=
  if c.backupMethod ≠ NULL then
    replaceMethod g mmap (c.prepare g w) c.backupMethod c.targetMethod true
  else some (0, c.prepare g w)

/-- `doBackupAndHook` adds up the results of its second and its third step. -/
theorem HookCall.exec_eq_some {c : HookCall} {w w' : World} {res : Nat} :
    c.exec g mmap w = some (res, w') ↔
      ∃ resBackup w₁ resHook, c.backUp g mmap w = some (resBackup, w₁) ∧
        replaceMethod g mmap w₁ c.targetMethod c.hookMethod false = some (resHook, w') ∧
        resBackup + resHook = res := by
  change ((c.backUp g mmap w).bind fun backUp =>
    (replaceMethod g mmap backUp.2 c.targetMethod c.hookMethod false).map
      fun hook => (backUp.1 + hook.1, hook.2)) = _ ↔ _
  simp only [Option.bind_eq_some_iff, Option.map_eq_some_iff, Prod.mk.injEq, Prod.exists]
  constructor
  · rintro ⟨rb, w₁, hb, rh, w₂, hh, hres, rfl⟩
    exact ⟨rb, w₁, rh, hb, hh, hres⟩
  · rintro ⟨rb, w₁, rh, hb, hh, hres⟩
    exact ⟨rb, w₁, hb, rh, w', hh, hres, rfl⟩

end Yahfa
