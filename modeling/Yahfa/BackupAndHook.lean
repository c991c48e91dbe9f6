import Yahfa.Base.Trace
import Yahfa.Dispatch
import Yahfa.Failure
import Yahfa.YafyaMain

/-!
# `backupAndHook`, from Java to the memory

`YafyaMain.backupAndHook` checks its arguments, `backupAndHookNative` installs
the hook and takes global references. A process is the world the native code
acts on and the global references taken so far.

Two questions about whole runs are settled here: which hooks are pinned
(`hooksPinned_of_careful`), and which invocations end (`apiAll_dispatch_ends_iff`).
-/

namespace Yahfa

open Bytes Hooking

variable {abi : Abi} {R : Type} [PartialOrder R] [DecidableLE R] [DecidableEq R]

/-! ## The native entry point and the Java method -/

/-- The process, as far as the library acts on it. -/
structure App (R : Type) where
  world : World
  globalRefs : List (Method R)

/-- The library just loaded. -/
def App.initial (mem : Memory) : App R := ⟨.initial mem, []⟩

/-- `getArtMethod` of a method; null has none. -/
def getArtMethod : Option (Method R) → Nat
  | none => NULL
  | some m => m.artMethod

/-- `getArtMethod` of a target. -/
def Target.artMethod : Target R → Nat
  | .method m => m.artMethod
  | .constructor c => c.artMethod
  | .other _ => NULL

/-- `Java_com_android_flinger_yafya_YafyaMain_backupAndHookNative`. -/
def backupAndHookNative (g : Statics abi) (mmap : Mmap) (s : App R) (target : Target R)
    (hook : Method R) (backup : Option (Method R)) : Option (Bool × App R) :=
  (doBackupAndHook g mmap s.world target.artMethod hook.artMethod (getArtMethod backup)).map
    fun (res, w) =>
      if res = 0 then
        -- keep a global ref so that the hook method would not be GCed
        (true, ⟨w, backup.toList ++ hook :: s.globalRefs⟩)
      else (false, { s with world := w })

/-- The arguments of a `backupAndHook` call; null is `none`. -/
structure ApiCall (R : Type) where
  target : Option (Target R)
  hook : Option (Method R)
  backup : Option (Method R)

/-- `backupAndHook`. -/
def backupAndHook (J : Classes R) (g : Statics abi) (mmap : Mmap) (s : App R) (c : ApiCall R) :
    Option (Except JavaException Unit × App R) :=
  match backupAndHookChecks J c.target c.hook c.backup with
  | .error e => some (.error e, s)
  | .ok (target, hook) =>
      (backupAndHookNative g mmap s target hook c.backup).map fun (ok, s) =>
        if ok then (.ok (), s)
        else (.error (.runtimeException
          ("Failed to hook " ++ target.text ++ " with " ++ hook.text)), s)

/-- What the native code is called with. -/
def ApiCall.hookCall (c : ApiCall R) : HookCall :=
  ⟨(c.target.map Target.artMethod).getD NULL, getArtMethod c.hook, getArtMethod c.backup⟩

section Spec

variable {J : Classes R} {g : Statics abi} {mmap : Mmap} {s s' : App R} {c : ApiCall R}
  {result : Except JavaException Unit}

/-- The three ways a call can end: a check fails and nothing happens, the hook
is installed and pinned, or hooking fails and nothing is pinned. -/
theorem backupAndHook_cases (h : backupAndHook J g mmap s c = some (result, s')) :
    (s' = s ∧ ∃ e, backupAndHookChecks J c.target c.hook c.backup = .error e ∧
      result = .error e) ∨
    ∃ target hook res, backupAndHookChecks J c.target c.hook c.backup = .ok (target, hook) ∧
      c.hookCall = ⟨target.artMethod, hook.artMethod, getArtMethod c.backup⟩ ∧
      c.hookCall.exec g mmap s.world = some (res, s'.world) ∧
      ((res = 0 ∧ result = .ok () ∧ s'.globalRefs = c.backup.toList ++ hook :: s.globalRefs) ∨
        (res ≠ 0 ∧ (∃ e, result = .error e) ∧ s'.globalRefs = s.globalRefs)) := by
  rw [backupAndHook] at h
  split at h
  · next e hcheck =>
    -- a check fails: nothing has happened yet
    rcases Prod.mk.inj (Option.some.inj h) with ⟨rfl, rfl⟩
    exact Or.inl ⟨rfl, e, hcheck, rfl⟩
  · next target hook hcheck =>
    rcases backupAndHookChecks_eq_ok.mp hcheck with ⟨htarget, hhook, -⟩
    rcases Option.map_eq_some_iff.mp h with ⟨⟨ok, s₁⟩, hnative, hend⟩
    rcases Option.map_eq_some_iff.mp hnative with ⟨⟨res, w⟩, hexec, hres⟩
    have hcall : c.hookCall = ⟨target.artMethod, hook.artMethod, getArtMethod c.backup⟩ := by
      simp [ApiCall.hookCall, htarget, hhook, getArtMethod]
    refine Or.inr ⟨target, hook, res, hcheck, hcall, ?_⟩
    rw [hcall]
    by_cases h0 : res = 0
    · -- installed, so the native method takes the references
      simp only [if_pos h0, Prod.mk.injEq] at hres
      rcases hres with ⟨rfl, rfl⟩
      simp only [if_true, Prod.mk.injEq] at hend
      rcases hend with ⟨rfl, rfl⟩
      exact ⟨hexec, Or.inl ⟨h0, rfl, rfl⟩⟩
    · -- refused: the Java method throws
      simp only [if_neg h0, Prod.mk.injEq] at hres
      rcases hres with ⟨rfl, rfl⟩
      simp only [Bool.false_eq_true, if_false, Prod.mk.injEq] at hend
      rcases hend with ⟨rfl, rfl⟩
      exact ⟨hexec, Or.inr ⟨h0, ⟨_, rfl⟩, rfl⟩⟩

end Spec

/-! ## Pinned hooks -/

/-- The arguments of the call are methods. -/
def ApiCall.Of (M : Set Nat) (c : ApiCall R) : Prop := c.hookCall.Of M

/-- Some call on methods, whatever comes of it, as long as it returns. -/
def apiNext (J : Classes R) (g : Statics abi) (mmap : Mmap) (M : Set Nat) :
    Trace.Action (App R) := fun s s' =>
  ∃ c : ApiCall R, c.Of M ∧ ∃ result, backupAndHook J g mmap s c = some (result, s')

/-- The call is about to lose its hook: it has a backup, no block was ever
mapped, and the first `mmap` will fail and the second will not. -/
def LosesHook (mmap : Mmap) (p : Pool) (c : ApiCall R) : Prop :=
  c.backup.isSome ∧ p.trampolineSpaceEnd = NULL ∧ NoBlock mmap p.mmaps ∧
    ¬ NoBlock mmap (p.mmaps + 1)

/-- Some call on methods that does not lose its hook. -/
def carefulNext (J : Classes R) (g : Statics abi) (mmap : Mmap) (M : Set Nat) :
    Trace.Action (App R) := fun s s' =>
  ∃ c : ApiCall R, c.Of M ∧ ¬ LosesHook mmap s.world.pool c ∧
    ∃ result, backupAndHook J g mmap s c = some (result, s')

/-- There is a global reference to a method with this `ArtMethod`. -/
def App.Pinned (s : App R) (artMethod : Nat) : Prop :=
  ∃ h ∈ s.globalRefs, h.artMethod = artMethod

/-- Every method whose entry point is a hook trampoline has its hook pinned. -/
def HooksPinned (g : Statics abi) (M : Set Nat) : Trace.StatePred (App R) := fun s =>
  ∀ t ∈ M, ∀ T ∈ s.world.made, T.entrypoint = NULL → g.entryPoint s.world.mem t = T.addr →
    s.Pinned T.toMethod

/-- Entry points are not null, on the levels where the library knows where they
are. Above T the flags are written over the first word of the method, and the
entry point is read from there. -/
def EntriesNonNull (g : Statics abi) (M : Set Nat) (mem : Memory) : Prop :=
  EntryApart g → ∀ m ∈ M, g.entryPoint mem m ≠ NULL

section Pinned

variable {sdkVersion : Int} {mmap : Mmap} {M : Set Nat} {w w' w₁ : World} {c : HookCall}
  {J : Classes R} {s s' : App R}

/-- `replaceMethod` keeps the entry points non-null. -/
theorem EntriesNonNull.replaceMethod {g : Statics abi} {t u r : Nat} {isBackup : Bool}
    (hp : Placement g mmap M) (hpool : PoolOk abi mmap w.pool)
    (h : EntriesNonNull g M w.mem) (ht : t ∈ M)
    (hr : replaceMethod g mmap w t u isBackup = some (r, w')) : EntriesNonNull g M w'.mem := by
  intro hf m hm
  rcases hpool.replaceMethod hp hr with ⟨-, ⟨-, T, -, -, hred⟩ | ⟨-, -, -, rfl⟩⟩
  · rw [hred.entryPoint hp hf ht hm]
    split
    · exact hred.addr_ne_null
    · exact h hf m hm
  · exact h hf m hm

theorem EntriesNonNull.prepare {g : Statics abi} (hp : Placement g mmap M)
    (h : EntriesNonNull g M w.mem) (hc : c.Of M) : EntriesNonNull g M (c.prepare g w).mem := by
  intro hf m hm
  have hkept : g.entryPoint (c.prepare g w).mem m = g.entryPoint w.mem m :=
    entryPoint_setBothNonCompilable (hp.methods_apart m hm _ hc.1)
      (fun hne => hp.methods_apart m hm _ (hc.2.2 hne)) hf
  rw [hkept]
  exact h hf m hm

/-- On an unhandled level `setNonCompilable` leaves at least one bit set. -/
theorem nonCompilable_unhandled_ne_zero (hsdk : sdkVersion ∉ handledLevels) (f : BitVec 32) :
    (initialized abi sdkVersion).nonCompilable f ≠ 0 := by
  rw [initialized_unhandled hsdk]
  intro hzero
  have hbit := congrArg (fun x : BitVec 32 => x.getLsbD 24) hzero
  simp only [Statics.nonCompilable, Statics.initial] at hbit
  split at hbit <;> simp at hbit

/-- When the backup is redirected, the entry point read from the target is not
null: above T because `setNonCompilable` has just set a bit in it. -/
theorem entryPoint_prepare_ne_null (hp : Placement (initialized abi sdkVersion) mmap M)
    (h : EntriesNonNull (initialized abi sdkVersion) M w.mem) (hc : c.Of M) :
    (initialized abi sdkVersion).entryPoint (c.prepare (initialized abi sdkVersion) w).mem
      c.targetMethod ≠ NULL := by
  by_cases hlevel : sdkVersion ∈ handledLevels ∨ sdkVersion < androidApiN
  · exact h.prepare hp hc (entryApart_initialized hlevel) _ hc.1
  · rcases not_or.mp hlevel with ⟨hsdk, hn⟩
    have hlevel' : androidApiN ≤ (initialized abi sdkVersion).sdkVersion := by
      rw [initialized_unhandled hsdk]
      exact not_lt.mp hn
    have hflags : (initialized abi sdkVersion).getFlags
        (c.prepare (initialized abi sdkVersion) w).mem c.targetMethod =
          (initialized abi sdkVersion).nonCompilable
            ((initialized abi sdkVersion).getFlags w.mem c.targetMethod) :=
      (getFlags_setBothNonCompilable (Or.inl rfl)
        (fun hne => hp.methods_apart _ hc.1 _ (hc.2.2 hne)) (flagsWithin_initialized sdkVersion)).trans
        (if_pos ⟨hlevel', Or.inl rfl⟩)
    intro hnull
    -- both fields are at offset 0, so a null entry point has null flags
    have hword : readWord (c.prepare (initialized abi sdkVersion) w).mem c.targetMethod
        (pointerSize abi) = 0 := by
      rw [initialized_unhandled hsdk] at hnull ⊢
      exact hnull
    have hfour : 4 ≤ pointerSize abi := by cases abi <;> decide
    have hzero : (initialized abi sdkVersion).getFlags
        (c.prepare (initialized abi sdkVersion) w).mem c.targetMethod = 0 := by
      have hword4 := readWord_eq_zero_of_le hword hfour
      rw [Statics.getFlags, read32, show (initialized abi sdkVersion).offsetAccessFlags = 0 by
        rw [initialized_unhandled hsdk]; rfl, Nat.add_zero, hword4]
      rfl
    exact nonCompilable_unhandled_ne_zero hsdk _ (hflags.symm.trans hzero)

/-- The backup step either makes no hook trampoline, or got no block. -/
theorem HookCall.backUp_made (hp : Placement (initialized abi sdkVersion) mmap M)
    (hpool : PoolOk abi mmap w.pool)
    (hentries : EntriesNonNull (initialized abi sdkVersion) M w.mem) (hc : c.Of M) {r : Nat}
    (hr : c.backUp (initialized abi sdkVersion) mmap w = some (r, w₁)) :
    EntriesNonNull (initialized abi sdkVersion) M w₁.mem ∧
    ((r = 0 ∧ ∀ T ∈ w₁.made, T.entrypoint = NULL → T ∈ w.made) ∨
      (c.backupMethod ≠ NULL ∧ NoBlock mmap w.pool.mmaps ∧
        w₁.pool = ⟨NULL, w.pool.trampolineSpaceEnd, w.pool.mmaps + 1⟩ ∧ w₁.made = w.made)) := by
  rw [HookCall.backUp] at hr
  split at hr
  · next hne =>
    have hpool' : PoolOk abi mmap (c.prepare (initialized abi sdkVersion) w).pool := hpool
    refine ⟨(hentries.prepare hp hc).replaceMethod hp hpool' (hc.2.2 hne) hr, ?_⟩
    rcases hpool'.replaceMethod hp hr with ⟨-, ⟨rfl, T, -, he, hred⟩ | ⟨-, -, hno, rfl⟩⟩
    · -- the backup got a trampoline, which is not one of a hook: it embeds an entry point
      refine Or.inl ⟨rfl, fun T' hT' hnull => ?_⟩
      rw [hred.made] at hT'
      rcases List.mem_cons.mp hT' with rfl | hT'
      · exact absurd (he.symm.trans hnull) (entryPoint_prepare_ne_null hp hentries hc)
      · exact hT'
    · -- no block: the pool is torn now, and nothing else has changed
      exact Or.inr ⟨hne, hno, rfl, rfl⟩
  · rcases Prod.mk.inj (Option.some.inj hr) with ⟨rfl, rfl⟩
    exact ⟨hentries.prepare hp hc, Or.inl ⟨rfl, fun T hT _ => hT⟩⟩

/-- The hook trampolines a call adds embed its hook, and then it reports success,
unless it lost its hook. -/
theorem HookCall.exec_made (hp : Placement (initialized abi sdkVersion) mmap M)
    (hpool : PoolOk abi mmap w.pool)
    (hentries : EntriesNonNull (initialized abi sdkVersion) M w.mem) (hc : c.Of M)
    (hcareful : ¬ (c.backupMethod ≠ NULL ∧ w.pool.trampolineSpaceEnd = NULL ∧
      NoBlock mmap w.pool.mmaps ∧ ¬ NoBlock mmap (w.pool.mmaps + 1))) {res : Nat}
    (hr : c.exec (initialized abi sdkVersion) mmap w = some (res, w')) :
    EntriesNonNull (initialized abi sdkVersion) M w'.mem ∧
    ∀ T ∈ w'.made, T.entrypoint = NULL →
      T ∈ w.made ∨ (res = 0 ∧ T.toMethod = c.hookMethod) := by
  rcases HookCall.exec_eq_some.mp hr with ⟨rb, w₁, rh, hbacked, hhooked, rfl⟩
  have hpool₁ := hpool.backUp hp hbacked
  rcases HookCall.backUp_made hp hpool hentries hc hbacked with ⟨hentries₁, hmade₁⟩
  refine ⟨hentries₁.replaceMethod hp hpool₁ hc.1 hhooked, fun T hT hnull => ?_⟩
  rcases hmade₁ with ⟨rfl, hmade⟩ | ⟨hne, hno, hpooleq, hmade⟩
  · rcases hpool₁.replaceMethod hp hhooked with ⟨-, ⟨rfl, T', hhook, -, hred⟩ | ⟨-, -, -, rfl⟩⟩
    · rw [hred.made] at hT
      rcases List.mem_cons.mp hT with rfl | hT
      · exact Or.inr ⟨rfl, hhook⟩
      · exact Or.inl (hmade T hT hnull)
    · exact Or.inl (hmade T hT hnull)
  · by_cases hend : w.pool.trampolineSpaceEnd = NULL
    · -- still no block: the second `mmap` has to fail as well
      have hno' : NoBlock mmap (w.pool.mmaps + 1) :=
        not_not.mp fun h => hcareful ⟨hne, hend, hno, h⟩
      rw [replaceMethod_of_virgin (by rw [hpooleq]; exact ⟨rfl, hend⟩)
        (by rw [hpooleq]; exact hno')] at hhooked
      rcases Prod.mk.inj (Option.some.inj hhooked) with ⟨-, rfl⟩
      exact Or.inl (hmade ▸ hT)
    · -- the failure has torn the pool, and the second step faults
      have htorn : Torn w₁.pool := by rw [hpooleq]; exact ⟨rfl, hend⟩
      simp [replaceMethod_of_torn htorn hpool₁.endOk] at hhooked

/-- The invariant behind `HooksPinned`: whatever entry points there are, every
hook trampoline ever made embeds a pinned hook. -/
structure PinInv (g : Statics abi) (mmap : Mmap) (M : Set Nat) (s : App R) : Prop where
  pool : PoolOk abi mmap s.world.pool
  entries : EntriesNonNull g M s.world.mem
  pinned : ∀ T ∈ s.world.made, T.entrypoint = NULL → s.Pinned T.toMethod

theorem PinInv.step (hp : Placement (initialized abi sdkVersion) mmap M)
    (hstep : carefulNext J (initialized abi sdkVersion) mmap M s s')
    (h : PinInv (initialized abi sdkVersion) mmap M s) :
    PinInv (initialized abi sdkVersion) mmap M s' := by
  rcases hstep with ⟨c, hc, hcareful, result, hcall⟩
  rcases backupAndHook_cases hcall with ⟨rfl, -⟩ | ⟨target, hook, res, -, heq, hexec, hrefs⟩
  · exact h
  · -- with a backup of null the native call has no backup either
    have hcareful' : ¬ (c.hookCall.backupMethod ≠ NULL ∧
        s.world.pool.trampolineSpaceEnd = NULL ∧ NoBlock mmap s.world.pool.mmaps ∧
        ¬ NoBlock mmap (s.world.pool.mmaps + 1)) := by
      rintro ⟨hne, hrest⟩
      refine hcareful ⟨?_, hrest⟩
      cases hb : c.backup with
      | none => exact absurd (by simp [ApiCall.hookCall, hb, getArtMethod]) hne
      | some b => rfl
    rcases HookCall.exec_made hp h.pool h.entries hc hcareful' hexec with ⟨hentries, hmade⟩
    refine ⟨h.pool.exec hp hexec, hentries, fun T hT hnull => ?_⟩
    rcases hrefs with ⟨-, -, hrefs⟩ | ⟨hfail, -, hrefs⟩
    · -- success: the new trampolines embed the hook that has just been pinned
      rcases hmade T hT hnull with hold | ⟨-, hto⟩
      · rcases h.pinned T hold hnull with ⟨m, hm, hart⟩
        exact ⟨m, by simp [hrefs, hm], hart⟩
      · exact ⟨hook, by simp [hrefs], by rw [hto, heq]⟩
    · -- failure: no hook trampoline is new
      rcases hmade T hT hnull with hold | ⟨hzero, -⟩
      · rcases h.pinned T hold hnull with ⟨m, hm, hart⟩
        exact ⟨m, by rw [hrefs]; exact hm, hart⟩
      · exact absurd hzero hfail

/-- In every run of calls none of which loses its hook, every hook trampoline
that is the entry point of a method embeds a hook with a global reference. -/
theorem hooksPinned_of_careful {mem : Memory}
    (hp : Placement (initialized abi sdkVersion) mmap M)
    (hentries : ∀ m ∈ M, (initialized abi sdkVersion).entryPoint mem m ≠ NULL) :
    ∀ s, Trace.Reachable (fun s : App R => s = .initial mem)
        (carefulNext J (initialized abi sdkVersion) mmap M) s →
      HooksPinned (initialized abi sdkVersion) M s := by
  intro s hs
  have hinv : ∀ s, Trace.Reachable (fun s : App R => s = .initial mem)
      (carefulNext J (initialized abi sdkVersion) mmap M) s →
        PinInv (initialized abi sdkVersion) mmap M s := by
    refine Trace.init_invariant ?_ fun s s' hstep => PinInv.step hp hstep
    rintro s rfl
    exact ⟨poolOk_initial, fun _ => hentries, by simp [App.initial, World.initial]⟩
  exact fun t _ T hT hnull _ => (hinv s hs).pinned T hT hnull

/-- A call on static methods without parameters. -/
def hookStatic (target hook : Nat) (backup : Option Nat) : ApiCall Lang where
  target := some (.method (staticMethod .void target))
  hook := some (staticMethod .void hook)
  backup := backup.map (staticMethod .void)

theorem hookStatic_of {target hook : Nat} {backup : Option Nat} (htarget : target ∈ pages)
    (hhook : hook ∈ pages) (hbackup : ∀ b ∈ backup, b ∈ pages) :
    (hookStatic target hook backup).Of pages := by
  refine ⟨htarget, hhook, ?_⟩
  cases backup with
  | none => exact fun h => absurd rfl h
  | some b => exact fun _ => hbackup b rfl

/-- One call with a backup, and a block for both trampolines. -/
theorem hooksPinned_of_careful_once :
    ∃ s, Trace.Reachable (fun s : App Lang => s = .initial fun _ => 1)
        (carefulNext lang (initialized .arm 29) (mmapRow 0x10000 1) pages) s ∧
      s.globalRefs.length = 2 ∧
      HooksPinned (initialized .arm 29) pages s := by
  have hcall : (backupAndHook lang (initialized .arm 29) (mmapRow 0x10000 1)
      (.initial fun _ => 1) (hookStatic 0x1000 0x2000 (some 0x3000))).map
        (fun r => r.2.globalRefs.length) = some 2 := by decide +kernel
  rcases Option.map_eq_some_iff.mp hcall with ⟨⟨result, s⟩, hr, hlen⟩
  have hreach : Trace.Reachable (fun s : App Lang => s = .initial fun _ => 1)
      (carefulNext lang (initialized .arm 29) (mmapRow 0x10000 1) pages) s := by
    refine .step (.init rfl) ⟨hookStatic 0x1000 0x2000 (some 0x3000),
      hookStatic_of (by decide) (by decide) (by decide), ?_, result, hr⟩
    rintro ⟨-, -, hno, -⟩
    exact absurd (hno 0x10000 rfl) (by decide)
  have hlay := layout_ones (n := 1) (by decide)
  exact ⟨s, hreach, hlen, hooksPinned_of_careful hlay.toPlacement hlay.entry_ne_null s hreach⟩

/-- The first `mmap` fails, for the backup; the second brings a block, for the
target. The call reports failure, and the target jumps to a hook that is not
pinned. -/
theorem hooksPinned_lost :
    ¬ ∀ s, Trace.Reachable (fun s : App Lang => s = .initial fun _ => 1)
        (apiNext lang (initialized .arm 29) (fun k => if k = 1 then some 0x10000 else none)
          pages) s →
      HooksPinned (initialized .arm 29) pages s := by
  intro h
  have hcall : (backupAndHook lang (initialized .arm 29)
      (fun k => if k = 1 then some 0x10000 else none) (.initial fun _ => 1)
      (hookStatic 0x1000 0x2000 (some 0x3000))).map (fun r => (r.2.globalRefs, r.2.world.made,
        (initialized .arm 29).entryPoint r.2.world.mem 0x1000)) =
      some ([], [⟨0x10000, 0x2000, NULL⟩], 0x10004) := by decide +kernel
  rcases Option.map_eq_some_iff.mp hcall with ⟨⟨result, s⟩, hr, hs⟩
  simp only [Prod.mk.injEq] at hs
  rcases hs with ⟨hrefs, hmade, hentry⟩
  have hpinned := h s (.step (.init rfl) ⟨hookStatic 0x1000 0x2000 (some 0x3000),
    hookStatic_of (by decide) (by decide) (by decide), result, hr⟩)
  rcases hpinned 0x1000 (by decide) ⟨0x10000, 0x2000, NULL⟩ (by simp [hmade]) rfl hentry with
    ⟨m, hm, -⟩
  simp [hrefs] at hm

end Pinned

/-! ## Invocations after accepted calls -/

/-- A sequence of calls all of which return normally. -/
def apiAll (J : Classes R) (g : Statics abi) (mmap : Mmap) (s : App R) (cs : List (ApiCall R)) :
    Option (App R) :=
  cs.foldlM (fun s c =>
    match backupAndHook J g mmap s c with
    | some (.ok (), s) => some s
    | _ => none) s

section Invocations

variable {J : Classes R} {g : Statics abi} {mmap : Mmap} {M : Set Nat} {mem₀ : Memory}
  {s s' : App R}

/-- Calls that return normally are successful native calls. -/
theorem apiAll_hookAll {cs : List (ApiCall R)} (h : apiAll J g mmap s cs = some s') :
    hookAll g mmap s.world (cs.map ApiCall.hookCall) = some s'.world := by
  induction cs generalizing s with
  | nil =>
      obtain rfl : s = s' := by simpa [apiAll] using h
      rfl
  | cons c cs ih =>
      simp only [apiAll, List.foldlM_cons, Option.bind_eq_bind, Option.bind_eq_some_iff] at h
      rcases h with ⟨s₁, hcall, hrest⟩
      split at hcall
      · next s₂ hr =>
        rcases Option.some.inj hcall with rfl
        rcases backupAndHook_cases hr with
          ⟨-, e, -, he⟩ | ⟨target, hook, res, -, -, hexec, ⟨rfl, -, -⟩ | ⟨-, ⟨e, he⟩, -⟩⟩
        · cases he
        · exact hookAll_cons.mpr ⟨_, hexec, ih hrest⟩
        · cases he
      · cases hcall

/-- Under the simulation, an invocation leaves the pool exactly when its chain of
hooks is finite. -/
theorem Sim.leaves_pool_iff {w : World} {cs : List (Call Nat)} {m : Nat}
    (hlay : Layout g mmap M mem₀) (h : Sim g mmap M mem₀ w (run cs)) (hm : m ∈ M) :
    (∃ c, Relation.ReflTransGen (Transfer g w) (invoke g w m) c ∧
      OutsidePool mmap w.pool c.pc) ↔ ∃ l, Chain.Ends (nextAfter cs) m l := by
  rw [← nextHook_run, ← lands_iff_ends]
  constructor
  · rintro ⟨c, hpath, hout⟩
    exact h.lands hpath hout (h.stands m hm)
  · rintro ⟨l, a', hl⟩
    rcases h.reaches hl (h.stands m hm) with ⟨hlM, hpath⟩
    exact ⟨_, hpath, fun k _ b hb => hlay.entry_outside l hlM k b hb⟩

/-- After calls that returned normally, invoking a method leaves the pool after
finitely many jumps exactly when the chain of hooks from it is finite. -/
theorem apiAll_dispatch_ends_iff {sdkVersion : Int}
    (hsdk : sdkVersion ∈ handledLevels ∨ sdkVersion < androidApiN)
    (hlay : Layout (initialized abi sdkVersion) mmap M mem₀) {cs : List (ApiCall R)}
    (hcs : ∀ c ∈ cs, c.Of M)
    (hr : apiAll J (initialized abi sdkVersion) mmap (.initial mem₀) cs = some s) {m : Nat}
    (hm : m ∈ M) :
    (∃ c, Relation.ReflTransGen (Transfer (initialized abi sdkVersion) s.world)
        (invoke (initialized abi sdkVersion) s.world m) c ∧ OutsidePool mmap s.world.pool c.pc) ↔
      ∃ l, Chain.Ends (nextAfter (cs.map fun c => c.hookCall.request)) m l := by
  have hsim := sim_hookAll hlay (entryApart_initialized hsdk)
    (fun c hc => by
      rcases List.mem_map.mp hc with ⟨c', hc', rfl⟩
      exact hcs c' hc') (apiAll_hookAll hr)
  rw [List.map_map] at hsim
  exact hsim.leaves_pool_iff hlay hm

/-- Two calls with a backup, and a third one that closes a ring. -/
theorem apiAll_dispatch_ends_iff_ring :
    let g := initialized .arm 29
    let cs := [hookStatic 0x1000 0x2000 (some 0x3000), hookStatic 0x2000 0x4000 (some 0x5000),
      hookStatic 0x4000 0x1000 none]
    ∃ s, apiAll lang g (mmapRow 0x10000 1) (.initial fun _ => 1) cs = some s ∧
      ∀ m ∈ pages, ((∃ c, Relation.ReflTransGen (Transfer g s.world) (invoke g s.world m) c ∧
          OutsidePool (mmapRow 0x10000 1) s.world.pool c.pc) ↔
        ∃ l, Chain.Ends (nextAfter (cs.map fun c => c.hookCall.request)) m l) := by
  intro g cs
  have hsome : (apiAll lang g (mmapRow 0x10000 1) (.initial fun _ => 1) cs).isSome = true := by
    decide +kernel
  rcases Option.isSome_iff_exists.mp hsome with ⟨s, hs⟩
  have hcs : ∀ c ∈ cs, c.Of pages := by
    simp only [cs, List.forall_mem_cons, List.not_mem_nil, false_implies, implies_true, and_true]
    refine ⟨?_, ?_, ?_⟩
    all_goals exact hookStatic_of (by decide) (by decide) (by decide)
  exact ⟨s, hs, fun m hm =>
    apiAll_dispatch_ends_iff (Or.inl (by decide)) (layout_ones (by decide)) hcs hs hm⟩

/-- A static method hooked with itself. -/
def hookItself : ApiCall Lang := hookStatic 0x1000 0x1000 none

/-- The checks accept a method as its own hook, and then invoking it never leaves
the pool. -/
theorem apiAll_hookItself_loops :
    ¬ ∀ s, apiAll lang (initialized .arm 29) (mmapRow 0x10000 1) (.initial fun _ => 1)
        [hookItself] = some s →
      ∃ c, Relation.ReflTransGen (Transfer (initialized .arm 29) s.world)
          (invoke (initialized .arm 29) s.world 0x1000) c ∧
        OutsidePool (mmapRow 0x10000 1) s.world.pool c.pc := by
  intro h
  have hsome : (apiAll lang (initialized .arm 29) (mmapRow 0x10000 1) (.initial fun _ => 1)
      [hookItself]).isSome = true := by decide +kernel
  rcases Option.isSome_iff_exists.mp hsome with ⟨s, hs⟩
  have hlay := layout_ones (n := 1) (by decide)
  have hsim := sim_hookAll hlay (entryApart_initialized (Or.inl (by decide)))
    (by
      rw [List.map_singleton, List.forall_mem_singleton]
      exact hookStatic_of (by decide) (by decide) (by decide)) (apiAll_hookAll hs)
  rcases (hsim.leaves_pool_iff hlay (by decide)).mp (h s hs) with ⟨l, hl⟩
  have hself : nextAfter (([hookItself].map ApiCall.hookCall).map HookCall.request) 0x1000 =
      some 0x1000 := rfl
  exact Chain.Ends.not_of_cycle (.single hself) hl

end Invocations

end Yahfa
