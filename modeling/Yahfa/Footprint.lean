import Yahfa.Dispatch
import Yahfa.Failure

/-!
# What a successful hook changes

`Statics.Rewritten` is the write set of `replaceMethod` and `setNonCompilable`
on one method: the quick entry point, the interpreter entry point on the levels
up to M, the access flags from N on. A successful `doBackupAndHook` keeps every
byte that is neither there, for the target or the backup, nor in the pool
(`exec_apply_of_not_rewritten`).

`HookedFlags` says bit by bit what becomes of the access flags. It determines
them (`HookedFlags.eq`), which is why hooking again leaves them alone.
-/

namespace Yahfa

open Bytes

variable {abi : Abi} {g : Statics abi} {mmap : Mmap} {M : Set Nat} {w w' : World} {c : HookCall}

/-! ## The write set -/

/-- The addresses of a method that hooking writes to. -/
def Statics.Rewritten (g : Statics abi) (method a : Nat) : Prop :=
  (g.quickSpan method).Contains a ∨
    (g.sdkVersion ≤ androidApiM ∧ (g.interpreterSpan method).Contains a) ∨
    (androidApiN ≤ g.sdkVersion ∧ (g.flagsSpan method).Contains a)

/-- The methods a call writes to: the target and the backup, if there is one. -/
def HookCall.Rewrites (c : HookCall) (m : Nat) : Prop :=
  m = c.targetMethod ∨ (c.backupMethod ≠ NULL ∧ m = c.backupMethod)

/-- The levels with an interpreter entry point are those up to M. -/
def InterpreterUpToM (g : Statics abi) : Prop :=
  g.offsetEntryPointFromInterpreter ≠ 0 ↔ g.sdkVersion ≤ androidApiM

instance : Decidable (InterpreterUpToM g) := inferInstanceAs (Decidable (_ ↔ _))

theorem interpreterUpToM_initialized {sdkVersion : Int} (h : sdkVersion ∈ handledLevels) :
    InterpreterUpToM (initialized abi sdkVersion) := by
  revert sdkVersion
  cases abi <;> decide +kernel

theorem sdkVersion_initialized {sdkVersion : Int} (h : sdkVersion ∈ handledLevels) :
    (initialized abi sdkVersion).sdkVersion = sdkVersion := by
  revert sdkVersion
  cases abi <;> decide +kernel

/-- The write set of a method lies inside the method. -/
theorem Statics.Rewritten.contains (hf : FieldsApart g) (hi : InterpreterUpToM g) {m a : Nat}
    (h : g.Rewritten m a) : (g.methodSpan m).Contains a := by
  have hlt := hf.flags_lt
  have hle := hf.le_quick
  simp only [Span.Contains, Statics.methodSpan]
  rcases h with hquick | ⟨hsdk, hinterpreter⟩ | ⟨-, hflags⟩
  · simp only [Span.Contains, Statics.quickSpan] at hquick
    omega
  · rcases hf.interpreter.resolve_left (hi.mpr hsdk) with ⟨-, hlast⟩
    simp only [Span.Contains, Statics.interpreterSpan] at hinterpreter
    omega
  · simp only [Span.Contains, Statics.flagsSpan] at hflags
    omega

/-! ## The writes stay in the write set -/

section Writes

variable {mem : Memory} {m a : Nat}

theorem setFlags_apply_of_not_rewritten (hn : androidApiN ≤ g.sdkVersion)
    (h : ¬ g.Rewritten m a) (f : BitVec 32) : g.setFlags mem m f a = mem a := by
  refine writeWord_of_disjoint ?_
  intro hflags
  exact h (Or.inr (Or.inr ⟨hn, hflags⟩))

theorem setNonCompilable_apply_of_not_rewritten (h : ¬ g.Rewritten m a) :
    setNonCompilable g mem m a = mem a := by
  unfold setNonCompilable
  split
  · rfl
  · next hge => exact setFlags_apply_of_not_rewritten (not_lt.mp hge) h _

theorem setBothNonCompilable_apply_of_not_rewritten
    (h : ∀ m, c.Rewrites m → ¬ g.Rewritten m a) :
    setBothNonCompilable g mem c.targetMethod c.backupMethod a = mem a := by
  have htarget : ¬ g.Rewritten c.targetMethod a := h _ (Or.inl rfl)
  rw [setBothNonCompilable_eq]
  split
  · exact setNonCompilable_apply_of_not_rewritten htarget
  · next hne =>
    have hbackup : ¬ g.Rewritten c.backupMethod a := h _ (Or.inr ⟨hne, rfl⟩)
    rw [setNonCompilable_apply_of_not_rewritten hbackup,
      setNonCompilable_apply_of_not_rewritten htarget]

theorem redirectEntryPoints_apply_of_not_rewritten (hi : InterpreterUpToM g)
    (h : ¬ g.Rewritten m a) (mem : Memory) (u v : Nat) :
    redirectEntryPoints g mem m u v a = mem a := by
  have hquick : g.setEntryPoint mem m v a = mem a := by
    refine writeWord_of_disjoint ?_
    intro hq
    exact h (Or.inl hq)
  unfold redirectEntryPoints
  split
  · next hne =>
    have hinterpreter : ¬ (g.interpreterSpan m).Contains a := by
      intro hc
      exact h (Or.inr (Or.inl ⟨hi.mp hne, hc⟩))
    exact (writeWord_of_disjoint hinterpreter).trans hquick
  · exact hquick

theorem redirect_apply_of_not_rewritten (hi : InterpreterUpToM g) (h : ¬ g.Rewritten m a)
    (u v : Nat) : redirect g mem m u v a = mem a := by
  have hentries := redirectEntryPoints_apply_of_not_rewritten hi h mem u v
  unfold redirect
  split
  · next hge =>
    have hn : androidApiN ≤ g.sdkVersion := le_trans (by decide) hge
    rw [setFlags_apply_of_not_rewritten hn h, hentries]
  · exact hentries

end Writes

/-! ## The whole call -/

section Call

variable {res t u a : Nat} {isBackup : Bool}

/-- Where the pool is not, a safe call of `genTrampoline` writes nothing. -/
theorem CallSafe.apply {r : GenResult} (h : CallSafe mmap r) {mem : Memory}
    (ha : OutsidePool mmap r.pool a) : applyStores mem r.stores a = mem a := by
  refine applyStores_of_disjoint ?_
  intro s hs hcontains
  rcases h with ⟨-, hnil⟩ | ⟨k, hk, b, hb, hwithin⟩
  · simp [hnil] at hs
  · exact ha k hk b hb ((hwithin s hs).contains hcontains)

theorem OutsidePool.of_le {p q : Pool} (h : OutsidePool mmap q a) (hle : p.mmaps ≤ q.mmaps) :
    OutsidePool mmap p a :=
  fun k hk => h k (lt_of_lt_of_le hk hle)

/-- What `replaceMethod` changes: the pool, and the write set of `fromMethod`. -/
theorem replaceMethod_apply_of_not_rewritten (hi : InterpreterUpToM g)
    (h : PoolOk abi mmap w.pool)
    (hr : replaceMethod g mmap w t u isBackup = some (res, w')) :
    w.pool.mmaps ≤ w'.pool.mmaps ∧
      ∀ a, OutsidePool mmap w'.pool a → ¬ g.Rewritten t a → w'.mem a = w.mem a := by
  rcases replaceMethod_cases g mmap w t u isBackup with
    ⟨-, T, -, -, -, -, -, heq⟩ | ⟨-, -, -, heq⟩ | ⟨-, -, heq⟩
  · obtain ⟨-, rfl⟩ : 0 = res ∧ _ = w' := by simpa using heq.symm.trans hr
    rcases h with hintact | ⟨htorn, hend⟩
    · refine ⟨genTrampoline_mmaps_le _ _ _ _ _, ?_⟩
      intro a ha hrewritten
      have hsafe : CallSafe mmap (genTrampoline abi g.trampoline mmap w.pool u
        (hardcodedEntrypoint g w.mem u isBackup)) := callSafe_of_intact hintact
      exact (redirect_apply_of_not_rewritten hi hrewritten _ _).trans (hsafe.apply ha)
    · simp [replaceMethod_of_torn htorn hend] at hr
  · obtain ⟨-, rfl⟩ : 1 = res ∧ _ = w' := by simpa using heq.symm.trans hr
    exact ⟨Nat.le_succ _, fun _ _ _ => rfl⟩
  · simp [heq] at hr

/-- What `doBackupAndHook` changes: the pool, and the write sets of target and
backup. -/
theorem exec_apply_of_not_rewritten (hi : InterpreterUpToM g) (hp : Placement g mmap M)
    (hpool : PoolOk abi mmap w.pool) (hr : c.exec g mmap w = some (res, w'))
    (ha : OutsidePool mmap w'.pool a) (h : ∀ m, c.Rewrites m → ¬ g.Rewritten m a) :
    w'.mem a = w.mem a := by
  rcases HookCall.exec_eq_some.mp hr with ⟨resBackup, w₁, resHook, hbacked, hhooked, -⟩
  have hprepared : (c.prepare g w).mem a = w.mem a :=
    setBothNonCompilable_apply_of_not_rewritten h
  have hpool₁ : PoolOk abi mmap w₁.pool := hpool.backUp hp hbacked
  rcases replaceMethod_apply_of_not_rewritten hi hpool₁ hhooked with ⟨hle, hhook⟩
  have ha₁ : OutsidePool mmap w₁.pool a := ha.of_le hle
  have hbackup : w₁.mem a = (c.prepare g w).mem a := by
    unfold HookCall.backUp at hbacked
    split at hbacked
    · next hne =>
      rcases replaceMethod_apply_of_not_rewritten (w := c.prepare g w) hi hpool hbacked with
        ⟨-, hstep⟩
      exact hstep a ha₁ (h _ (Or.inr ⟨hne, rfl⟩))
    · rcases Prod.mk.inj (Option.some.inj hbacked) with ⟨-, rfl⟩
      rfl
  rw [hhook a ha (h _ (Or.inl rfl)), hbackup, hprepared]

end Call

/-! ## The access flags -/

/-- The flags that are set and the flags that are cleared are different ones. -/
structure FlagsApart (g : Statics abi) : Prop where
  compileDontBother : g.kAccCompileDontBother &&&
    (g.kAccPreCompiled ||| g.kAccFastInterpreterToInterpreterInvoke) = 0
  native : g.kAccNative &&&
    (g.kAccPreCompiled ||| g.kAccFastInterpreterToInterpreterInvoke) = 0

instance : Decidable (FlagsApart g) :=
  decidable_of_iff (_ ∧ _) ⟨fun ⟨h₁, h₂⟩ => ⟨h₁, h₂⟩, fun ⟨h₁, h₂⟩ => ⟨h₁, h₂⟩⟩

theorem flagsApart_initialized {sdkVersion : Int} (h : sdkVersion ∈ handledLevels) :
    FlagsApart (initialized abi sdkVersion) := by
  revert sdkVersion
  cases abi <;> decide +kernel

/-- What becomes of the flags of a hooked method, bit by bit. -/
structure HookedFlags (g : Statics abi) (f f' : BitVec 32) : Prop where
  compileDontBother : ∀ i, g.kAccCompileDontBother.getLsbD i = true → f'.getLsbD i = true
  preCompiled : androidApiR ≤ g.sdkVersion →
    ∀ i, g.kAccPreCompiled.getLsbD i = true → f'.getLsbD i = false
  fastInterpreter : androidApiQ ≤ g.sdkVersion →
    ∀ i, g.kAccFastInterpreterToInterpreterInvoke.getLsbD i = true → f'.getLsbD i = false
  native : androidApiO ≤ g.sdkVersion → g.sdkVersion ≤ androidApiQ →
    ∀ i, g.kAccNative.getLsbD i = true → f'.getLsbD i = true
  other : ∀ i, g.kAccCompileDontBother.getLsbD i = false →
    (androidApiR ≤ g.sdkVersion → g.kAccPreCompiled.getLsbD i = false) →
    (androidApiQ ≤ g.sdkVersion → g.kAccFastInterpreterToInterpreterInvoke.getLsbD i = false) →
    (androidApiO ≤ g.sdkVersion → g.sdkVersion ≤ androidApiQ → g.kAccNative.getLsbD i = false) →
    f'.getLsbD i = f.getLsbD i

/-- What the two functions that write flags make of them, one after the other. -/
def Statics.hookedFlags (g : Statics abi) (f : BitVec 32) : BitVec 32 :=
  let f := if g.sdkVersion ≥ androidApiN then g.nonCompilable f else f
  if g.sdkVersion ≥ androidApiO then g.replaced f else f

section Flags

variable {f f' f'' : BitVec 32}

theorem getLsbD_nonCompilable {i : Nat} (hi : i < 32) :
    (g.nonCompilable f).getLsbD i =
      ((f.getLsbD i || g.kAccCompileDontBother.getLsbD i) &&
        !(decide (androidApiR ≤ g.sdkVersion) && g.kAccPreCompiled.getLsbD i)) := by
  by_cases hr : androidApiR ≤ g.sdkVersion <;> simp [Statics.nonCompilable, hr, hi]

theorem getLsbD_replaced {i : Nat} (hi : i < 32) :
    (g.replaced f).getLsbD i =
      ((f.getLsbD i && !(decide (androidApiQ ≤ g.sdkVersion) &&
          g.kAccFastInterpreterToInterpreterInvoke.getLsbD i)) ||
        (decide (g.sdkVersion ≤ androidApiQ) && g.kAccNative.getLsbD i)) := by
  by_cases hq : androidApiQ ≤ g.sdkVersion <;> by_cases hq' : g.sdkVersion ≤ androidApiQ <;>
    simp [Statics.replaced, hq, hq', hi]

theorem getLsbD_hookedFlags (hn : androidApiN ≤ g.sdkVersion) {i : Nat} (hi : i < 32) :
    (g.hookedFlags f).getLsbD i =
      (((f.getLsbD i || g.kAccCompileDontBother.getLsbD i) &&
          !(decide (androidApiR ≤ g.sdkVersion) && g.kAccPreCompiled.getLsbD i) &&
          !(decide (androidApiQ ≤ g.sdkVersion) &&
            g.kAccFastInterpreterToInterpreterInvoke.getLsbD i)) ||
        (decide (androidApiO ≤ g.sdkVersion ∧ g.sdkVersion ≤ androidApiQ) &&
          g.kAccNative.getLsbD i)) := by
  unfold Statics.hookedFlags
  by_cases ho : androidApiO ≤ g.sdkVersion
  · simp only [ge_iff_le, hn, ho, if_true, getLsbD_replaced hi, getLsbD_nonCompilable hi, true_and]
  · -- below O only the first of the two functions runs
    have hq : ¬ androidApiQ ≤ g.sdkVersion := fun hq => ho (le_trans (by decide) hq)
    simp [hn, ho, hq, getLsbD_nonCompilable hi]

/-- No bit is both set and cleared. -/
theorem FlagsApart.getLsbD (h : FlagsApart g) (i : Nat) :
    (g.kAccCompileDontBother.getLsbD i = true → g.kAccPreCompiled.getLsbD i = false ∧
      g.kAccFastInterpreterToInterpreterInvoke.getLsbD i = false) ∧
    (g.kAccNative.getLsbD i = true → g.kAccPreCompiled.getLsbD i = false ∧
      g.kAccFastInterpreterToInterpreterInvoke.getLsbD i = false) := by
  have hdontBother := congrArg (fun f : BitVec 32 => f.getLsbD i) h.compileDontBother
  have hnative := congrArg (fun f : BitVec 32 => f.getLsbD i) h.native
  simp only [BitVec.getLsbD_and, BitVec.getLsbD_or] at hdontBother hnative
  constructor
  · intro hb
    simpa [hb] using hdontBother
  · intro hb
    simpa [hb] using hnative

/-- The functions of the source do to the flags what `HookedFlags` says. -/
theorem hookedFlags_spec (h : FlagsApart g) (hn : androidApiN ≤ g.sdkVersion) (f : BitVec 32) :
    HookedFlags g f (g.hookedFlags f) := by
  -- a bit of a mask is a bit of the word
  have hlt : ∀ {mask : BitVec 32} {i : Nat}, mask.getLsbD i = true → i < 32 :=
    fun hb => BitVec.lt_of_getLsbD hb
  constructor
  · intro i hb
    rcases (h.getLsbD i).1 hb with ⟨hpre, hfast⟩
    simp [getLsbD_hookedFlags hn (hlt hb), hb, hpre, hfast]
  · intro hr i hb
    have hnative : g.kAccNative.getLsbD i = false := by
      by_contra hset
      simp [((h.getLsbD i).2 (by simpa using hset)).1] at hb
    simp [getLsbD_hookedFlags hn (hlt hb), hb, hr, hnative]
  · intro hq i hb
    have hnative : g.kAccNative.getLsbD i = false := by
      by_contra hset
      simp [((h.getLsbD i).2 (by simpa using hset)).2] at hb
    simp [getLsbD_hookedFlags hn (hlt hb), hb, hq, hnative]
  · intro ho hq i hb
    simp [getLsbD_hookedFlags hn (hlt hb), hb, ho, hq]
  · intro i hdontBother hpre hfast hnative
    by_cases hi : i < 32
    · rw [getLsbD_hookedFlags hn hi]
      have hpre' : (decide (androidApiR ≤ g.sdkVersion) && g.kAccPreCompiled.getLsbD i) = false := by
        simpa using hpre
      have hfast' : (decide (androidApiQ ≤ g.sdkVersion) &&
          g.kAccFastInterpreterToInterpreterInvoke.getLsbD i) = false := by
        simpa using hfast
      have hnative' : (decide (androidApiO ≤ g.sdkVersion ∧ g.sdkVersion ≤ androidApiQ) &&
          g.kAccNative.getLsbD i) = false := by
        simpa using hnative
      rw [hdontBother, hpre', hfast', hnative']
      simp
    · rw [BitVec.getLsbD_of_ge _ _ (not_lt.mp hi), BitVec.getLsbD_of_ge _ _ (not_lt.mp hi)]

/-- Every bit of the new flags is fixed or a bit of the old flags, so the old
flags determine the new ones. -/
theorem HookedFlags.eq (h : HookedFlags g f f') (h' : HookedFlags g f f'') : f' = f'' := by
  refine BitVec.eq_of_getLsbD_eq ?_
  intro i _
  by_cases hdontBother : g.kAccCompileDontBother.getLsbD i = true
  · rw [h.compileDontBother i hdontBother, h'.compileDontBother i hdontBother]
  by_cases hpre : androidApiR ≤ g.sdkVersion ∧ g.kAccPreCompiled.getLsbD i = true
  · rw [h.preCompiled hpre.1 i hpre.2, h'.preCompiled hpre.1 i hpre.2]
  by_cases hfast : androidApiQ ≤ g.sdkVersion ∧
      g.kAccFastInterpreterToInterpreterInvoke.getLsbD i = true
  · rw [h.fastInterpreter hfast.1 i hfast.2, h'.fastInterpreter hfast.1 i hfast.2]
  by_cases hnative : androidApiO ≤ g.sdkVersion ∧ g.sdkVersion ≤ androidApiQ ∧
      g.kAccNative.getLsbD i = true
  · rw [h.native hnative.1 hnative.2.1 i hnative.2.2, h'.native hnative.1 hnative.2.1 i hnative.2.2]
  · have hdontBother' := Bool.eq_false_iff.mpr hdontBother
    simp only [not_and, Bool.not_eq_true] at hpre hfast hnative
    rw [h.other i hdontBother' hpre hfast hnative, h'.other i hdontBother' hpre hfast hnative]

/-- Flags that have been through once stay as they are. -/
theorem HookedFlags.again (h : HookedFlags g f f') : HookedFlags g f' f' :=
  ⟨h.compileDontBother, h.preCompiled, h.fastInterpreter, h.native, fun _ _ _ _ _ => rfl⟩

/-- Below N the flags are left alone; from N on the first pass fixes them. -/
theorem hookedFlags_hookedFlags (h : FlagsApart g) (f : BitVec 32) :
    g.hookedFlags (g.hookedFlags f) = g.hookedFlags f := by
  by_cases hn : androidApiN ≤ g.sdkVersion
  · exact (hookedFlags_spec h hn _).eq (hookedFlags_spec h hn f).again
  · have ho : ¬ androidApiO ≤ g.sdkVersion := fun ho => hn (le_trans (by decide) ho)
    simp [Statics.hookedFlags, hn, ho]

/-- Setting the flags of `replaceMethod` twice is setting them once. -/
theorem replaced_replaced (f : BitVec 32) : g.replaced (g.replaced f) = g.replaced f := by
  refine BitVec.eq_of_getLsbD_eq ?_
  intro i hi
  rw [getLsbD_replaced hi, getLsbD_replaced hi]
  generalize (decide (androidApiQ ≤ g.sdkVersion) && _) = cleared
  generalize (decide (g.sdkVersion ≤ androidApiQ) && _) = set
  cases f.getLsbD i <;> cases cleared <;> cases set <;> rfl

end Flags

/-! ## Successful calls -/

section Success

instance (c : HookCall) (m : Nat) : Decidable (c.Rewrites m) :=
  inferInstanceAs (Decidable (_ ∨ _))

/-- A successful `replaceMethod` rewrites the flags of `fromMethod` from O on. -/
theorem getFlags_replaceMethod (hf : FieldsApart g) (hp : Placement g mmap M)
    (hpool : PoolOk abi mmap w.pool) {t u m : Nat} {isBackup : Bool} (ht : t ∈ M) (hm : m ∈ M)
    (hr : replaceMethod g mmap w t u isBackup = some (0, w')) :
    g.getFlags w'.mem m =
      if androidApiO ≤ g.sdkVersion ∧ m = t then g.replaced (g.getFlags w.mem m)
      else g.getFlags w.mem m := by
  rcases hpool.replaceMethod hp hr with ⟨-, ⟨-, T, -, -, hred⟩ | ⟨hone, -⟩⟩
  · exact hred.getFlags hp hf ht hm
  · exact absurd hone (by decide)

/-- A successful call puts the flags of target and backup through `hookedFlags`. -/
theorem getFlags_exec (hf : FieldsApart g) (hp : Placement g mmap M)
    (hpool : PoolOk abi mmap w.pool) (hc : c.Of M) (hr : c.exec g mmap w = some (0, w'))
    {m : Nat} (hm : m ∈ M) :
    g.getFlags w'.mem m =
      if c.Rewrites m then g.hookedFlags (g.getFlags w.mem m) else g.getFlags w.mem m := by
  rcases HookCall.exec_eq_some.mp hr with ⟨resBackup, w₁, resHook, hbacked, hhooked, hsum⟩
  obtain ⟨rfl, rfl⟩ : resBackup = 0 ∧ resHook = 0 := by omega
  have hprepared : g.getFlags (c.prepare g w).mem m =
      if androidApiN ≤ g.sdkVersion ∧ c.Rewrites m then g.nonCompilable (g.getFlags w.mem m)
      else g.getFlags w.mem m :=
    getFlags_setBothNonCompilable (hp.methods_apart m hm _ hc.1)
      (fun hne => hp.methods_apart m hm _ (hc.2.2 hne)) hf.flagsWithin
  have hbackup : g.getFlags w₁.mem m =
      if androidApiO ≤ g.sdkVersion ∧ c.backupMethod ≠ NULL ∧ m = c.backupMethod then
        g.replaced (g.getFlags (c.prepare g w).mem m)
      else g.getFlags (c.prepare g w).mem m := by
    unfold HookCall.backUp at hbacked
    split at hbacked
    · next hne =>
      rw [getFlags_replaceMethod (w := c.prepare g w) hf hp hpool (hc.2.2 hne) hm hbacked]
      simp [hne]
    · next hnull =>
      rcases Prod.mk.inj (Option.some.inj hbacked) with ⟨-, rfl⟩
      rw [if_neg fun h => hnull h.2.1]
  have hhook := getFlags_replaceMethod hf hp (hpool.backUp hp hbacked) hc.1 hm hhooked
  rw [hhook, hbackup, hprepared]
  by_cases ho : androidApiO ≤ g.sdkVersion
  · have hn : androidApiN ≤ g.sdkVersion := le_trans (by decide) ho
    simp only [Statics.hookedFlags, ge_iff_le, ho, hn, true_and, if_true]
    by_cases ht : m = c.targetMethod <;> by_cases hb : c.backupMethod ≠ NULL ∧ m = c.backupMethod
    · -- target and backup are one method, which is redirected twice
      have hrw : c.Rewrites m := Or.inl ht
      rw [if_pos ht, if_pos hb, if_pos hrw, if_pos hrw, replaced_replaced]
    · have hrw : c.Rewrites m := Or.inl ht
      rw [if_pos ht, if_neg hb, if_pos hrw, if_pos hrw]
    · have hrw : c.Rewrites m := Or.inr hb
      rw [if_neg ht, if_pos hb, if_pos hrw, if_pos hrw]
    · have hrw : ¬ c.Rewrites m := not_or.mpr ⟨ht, hb⟩
      rw [if_neg ht, if_neg hb, if_neg hrw, if_neg hrw]
  · simp only [Statics.hookedFlags, ge_iff_le, ho, false_and, if_false]
    by_cases hn : androidApiN ≤ g.sdkVersion <;> by_cases hrw : c.Rewrites m <;> simp [hn, hrw]

/-- Hooking again keeps the flags of the first time. -/
theorem getFlags_hookRun (hf : FieldsApart g) (hflags : FlagsApart g) (hp : Placement g mmap M)
    (hpool : PoolOk abi mmap w.pool) (hc : c.Of M) (hr : c.exec g mmap w = some (0, w')) (n : Nat)
    {rs : List Nat} {w'' : World}
    (hrun : hookRun g mmap w (List.replicate (n + 1) c) = some (rs, w''))
    (hzero : ∀ r ∈ rs, r = 0) :
    PoolOk abi mmap w''.pool ∧ ∀ m ∈ M, g.getFlags w''.mem m = g.getFlags w'.mem m := by
  induction n generalizing rs w'' with
  | zero =>
      obtain ⟨-, rfl⟩ : [0] = rs ∧ w' = w'' := by simpa [hookRun, hr] using hrun
      exact ⟨hpool.exec hp hr, fun _ _ => rfl⟩
  | succ n ih =>
      rw [List.replicate_succ', hookRun_snoc] at hrun
      rcases Option.bind_eq_some_iff.mp hrun with ⟨⟨rs₁, w₁⟩, hrun₁, hlast⟩
      rcases Option.map_eq_some_iff.mp hlast with ⟨⟨res, w₂⟩, hexec, heq⟩
      obtain ⟨rfl, rfl⟩ : rs₁ ++ [res] = rs ∧ w₂ = w'' := by simpa using heq
      rcases ih hrun₁ fun r hr => hzero r (List.mem_append_left _ hr) with ⟨hpool₁, hsame⟩
      obtain rfl : res = 0 := hzero res (by simp)
      refine ⟨hpool₁.exec hp hexec, ?_⟩
      intro m hm
      -- the flags of the last call, on those the calls before it left
      rw [getFlags_exec hf hp hpool₁ hc hexec hm, hsame m hm, getFlags_exec hf hp hpool hc hr hm]
      split
      · exact hookedFlags_hookedFlags hflags _
      · rfl

/-- The footprint of a successful call. Outside the pool and the write sets of
target and backup no byte changes, and so none of any other object, the hook
among them. From N on the flags of target and backup become what `HookedFlags`
says, and hooking the same methods again leaves them so. -/
theorem exec_footprint {sdkVersion : Int} (hsdk : sdkVersion ∈ handledLevels)
    (hp : Placement (initialized abi sdkVersion) mmap M) (hpool : PoolOk abi mmap w.pool)
    (hc : c.Of M) (hr : c.exec (initialized abi sdkVersion) mmap w = some (0, w')) :
    let g := initialized abi sdkVersion
    (∀ a, OutsidePool mmap w'.pool a → (∀ m, c.Rewrites m → ¬ g.Rewritten m a) →
      w'.mem a = w.mem a) ∧
    (∀ s : Span, (∀ m, c.Rewrites m → s.Apart (g.methodSpan m)) →
      (∀ k b, mmap k = some b → s.Apart (blockSpan b)) →
      ∀ a, s.Contains a → w'.mem a = w.mem a) ∧
    (androidApiN ≤ sdkVersion → ∀ m, c.Rewrites m →
      HookedFlags g (g.getFlags w.mem m) (g.getFlags w'.mem m)) ∧
    (∀ n rs w'', hookRun g mmap w (List.replicate (n + 1) c) = some (rs, w'') →
      (∀ r ∈ rs, r = 0) → ∀ m, c.Rewrites m → g.getFlags w''.mem m = g.getFlags w'.mem m) := by
  intro g
  have hf : FieldsApart g := fieldsApart_initialized hsdk
  have hi : InterpreterUpToM g := interpreterUpToM_initialized hsdk
  have hflags : FlagsApart g := flagsApart_initialized hsdk
  have hmem : ∀ m, c.Rewrites m → m ∈ M := by
    rintro m (rfl | ⟨hne, rfl⟩)
    · exact hc.1
    · exact hc.2.2 hne
  refine ⟨?_, ?_, ?_, ?_⟩
  · intro a ha hrewritten
    exact exec_apply_of_not_rewritten hi hp hpool hr ha hrewritten
  · -- an object apart from both methods and from all blocks
    intro s hmethods hblocks a ha
    refine exec_apply_of_not_rewritten hi hp hpool hr ?_ ?_
    · intro k _ b hb
      exact (hblocks k b hb).not_contains ha
    · intro m hm hrewritten
      exact (hmethods m hm).not_contains ha (hrewritten.contains hf hi)
  · intro hn m hm
    rw [getFlags_exec hf hp hpool hc hr (hmem m hm), if_pos hm]
    exact hookedFlags_spec hflags ((sdkVersion_initialized hsdk).symm ▸ hn) _
  · -- the same call again and again
    intro n rs w'' hrun hzero m hm
    exact (getFlags_hookRun hf hflags hp hpool hc hr n hrun hzero).2 m (hmem m hm)

/-- Hooking with a backup on 64-bit Android 10. -/
theorem exec_footprint_android10 :
    let g := initialized .aarch64 29
    let w : World := .initial fun _ => 0
    let c : HookCall := ⟨0x1000, 0x2000, 0x3000⟩
    ∃ w', c.exec g (mmapRow 0x10000 1) w = some (0, w') ∧
      (∀ a, OutsidePool (mmapRow 0x10000 1) w'.pool a →
        (∀ m, c.Rewrites m → ¬ g.Rewritten m a) → w'.mem a = w.mem a) ∧
      (∀ s : Span, (∀ m, c.Rewrites m → s.Apart (g.methodSpan m)) →
        (∀ k b, mmapRow 0x10000 1 k = some b → s.Apart (blockSpan b)) →
        ∀ a, s.Contains a → w'.mem a = w.mem a) ∧
      (androidApiN ≤ 29 → ∀ m, c.Rewrites m →
        HookedFlags g (g.getFlags w.mem m) (g.getFlags w'.mem m)) ∧
      (∀ n rs w'', hookRun g (mmapRow 0x10000 1) w (List.replicate (n + 1) c) = some (rs, w'') →
        (∀ r ∈ rs, r = 0) → ∀ m, c.Rewrites m →
          g.getFlags w''.mem m = g.getFlags w'.mem m) := by
  intro g w c
  have hres : (c.exec g (mmapRow 0x10000 1) w).map Prod.fst = some 0 := by decide +kernel
  rcases Option.map_eq_some_iff.mp hres with ⟨⟨res, w'⟩, hr, hzero⟩
  obtain rfl : res = 0 := hzero
  have hc : c.Of pages := by
    unfold HookCall.Of
    decide
  exact ⟨w', hr, exec_footprint (by decide) (placement_pages (by decide) (by decide))
    poolOk_initial hc hr⟩

end Success

end Yahfa
