import Yahfa.HookSpec

/-!
# When hooking fails

A call reports failure when one of its two allocations failed. There is no
rollback: the flags stay changed, and what the other allocation brought stays in
place. A method the call got no trampoline for keeps its entry points
(`failed_exec`).

On a level without a `case` in `init` every offset is 0 and nothing stops a
call; `unhandled_run_refused` says when a run of calls does no harm there.
-/

namespace Yahfa

open Bytes

variable {abi : Abi} {g : Statics abi} {mmap : Mmap} {M : Set Nat} {w w' : World}

/-! ## A failed call -/

/-- The call left the method alone, except that `setNonCompilable` went over its
flags if it is the target or the backup. -/
structure KeptUpToFlags (g : Statics abi) (c : HookCall) (w w' : World) (m : Nat) : Prop where
  entryPoint : g.entryPoint w'.mem m = g.entryPoint w.mem m
  interpreterEntryPoint : g.offsetEntryPointFromInterpreter ≠ 0 →
    g.interpreterEntryPoint w'.mem m = g.interpreterEntryPoint w.mem m
  flags : g.getFlags w'.mem m =
    if androidApiN ≤ g.sdkVersion ∧
        (m = c.targetMethod ∨ (c.backupMethod ≠ NULL ∧ m = c.backupMethod)) then
      g.nonCompilable (g.getFlags w.mem m)
    else g.getFlags w.mem m

section Failed

variable {c : HookCall} {res t u : Nat} {isBackup : Bool}

/-- The first step leaves every method alone up to flags. -/
theorem HookCall.keptUpToFlags_prepare (hf : FieldsApart g) (hp : Placement g mmap M)
    (hc : c.Of M) {m : Nat} (hm : m ∈ M) : KeptUpToFlags g c w (c.prepare g w) m := by
  have ht := hp.methods_apart m hm _ hc.1
  have hb := fun hne => hp.methods_apart m hm _ (hc.2.2 hne)
  exact ⟨entryPoint_setBothNonCompilable ht hb hf.entryApart,
    interpreterEntryPoint_setBothNonCompilable ht hb hf,
    getFlags_setBothNonCompilable ht hb hf.flagsWithin⟩

/-- A method that `replaceMethod` does not redirect keeps its fields. -/
theorem KeptUpToFlags.replaceMethod (hf : FieldsApart g) (hp : Placement g mmap M)
    {w₀ : World} {m : Nat} (hm : m ∈ M) (h : KeptUpToFlags g c w₀ w m)
    (hpool : PoolOk abi mmap w.pool) (ht : t ∈ M) (hu : u ∈ M)
    (hr : replaceMethod g mmap w t u isBackup = some (res, w')) (hkept : m = t → res ≠ 0) :
    KeptUpToFlags g c w₀ w' m := by
  rcases hpool.replaceMethod hp hr with ⟨-, ⟨rfl, T, rfl, -, hred⟩ | ⟨-, -, -, rfl⟩⟩
  · have hne : m ≠ t := fun heq => hkept heq rfl
    refine ⟨?_, fun hi => ?_, ?_⟩
    · rw [hred.entryPoint hp hf.entryApart ht hm, if_neg hne, h.entryPoint]
    · rw [hred.interpreterEntryPoint hp hf ht hm hu hi, if_neg hne, h.interpreterEntryPoint hi]
    · rw [hred.getFlags hp hf ht hm, if_neg fun hc => hne hc.2, h.flags]
  · exact ⟨h.entryPoint, h.interpreterEntryPoint, h.flags⟩

/-- The pool stays in one of its states. -/
theorem PoolOk.backUp (hp : Placement g mmap M) (hpool : PoolOk abi mmap w.pool)
    (hr : c.backUp g mmap w = some (res, w')) : PoolOk abi mmap w'.pool := by
  rw [HookCall.backUp] at hr
  split at hr
  · exact (PoolOk.replaceMethod (w := c.prepare g w) hp hpool hr).1
  · rcases Prod.mk.inj (Option.some.inj hr) with ⟨-, rfl⟩
    exact hpool

theorem PoolOk.exec (hp : Placement g mmap M) (hpool : PoolOk abi mmap w.pool)
    (hr : c.exec g mmap w = some (res, w')) : PoolOk abi mmap w'.pool := by
  rcases HookCall.exec_eq_some.mp hr with ⟨_, _, _, hbacked, hhooked, -⟩
  exact ((hpool.backUp hp hbacked).replaceMethod hp hhooked).1

/-- When a call reports failure, one of its allocations failed, and every method
it got no trampoline for is as before, up to the flags of `setNonCompilable`. -/
theorem failed_exec {sdkVersion : Int} (hsdk : sdkVersion ∈ handledLevels)
    (hp : Placement (initialized abi sdkVersion) mmap M) (hpool : PoolOk abi mmap w.pool)
    (hc : c.Of M) (hr : c.exec (initialized abi sdkVersion) mmap w = some (res, w'))
    (hres : res ≠ 0) :
    ∃ resBackup w₁ resHook,
      c.backUp (initialized abi sdkVersion) mmap w = some (resBackup, w₁) ∧
      replaceMethod (initialized abi sdkVersion) mmap w₁ c.targetMethod c.hookMethod false =
        some (resHook, w') ∧
      (resBackup ≠ 0 ∨ resHook ≠ 0) ∧
      ∀ m ∈ M, (m = c.backupMethod → resBackup ≠ 0) → (m = c.targetMethod → resHook ≠ 0) →
        KeptUpToFlags (initialized abi sdkVersion) c w w' m := by
  have hf : FieldsApart (initialized abi sdkVersion) := fieldsApart_initialized hsdk
  rcases HookCall.exec_eq_some.mp hr with ⟨resBackup, w₁, resHook, hbacked, hhooked, hsum⟩
  refine ⟨resBackup, w₁, resHook, hbacked, hhooked, by omega, fun m hm hmb hmt => ?_⟩
  have hprep := HookCall.keptUpToFlags_prepare (w := w) hf hp hc hm
  -- the backup step, if there is one, and then the hook step
  have h₁ : KeptUpToFlags (initialized abi sdkVersion) c w w₁ m := by
    have hstep := hbacked
    rw [HookCall.backUp] at hstep
    split at hstep
    · next hne => exact hprep.replaceMethod hf hp hm hpool (hc.2.2 hne) hc.1 hstep hmb
    · rcases Prod.mk.inj (Option.some.inj hstep) with ⟨-, rfl⟩
      exact hprep
  exact h₁.replaceMethod hf hp hm (hpool.backUp hp hbacked) hc.1 hc.2.1 hhooked hmt

/-- The backup gets no block and the target does: only the target is redirected. -/
theorem failed_exec_backup :
    let g := initialized .arm 24
    let mmap := failsFirst (mmapRow 0x10000 2)
    let w : World := .initial fun _ => 0
    let c : HookCall := ⟨0x1000, 0x2000, 0x3000⟩
    ∃ w', c.exec g mmap w = some (1, w') ∧ w'.made = [⟨0x11000, 0x2000, NULL⟩] ∧
      ∃ resBackup w₁ resHook, c.backUp g mmap w = some (resBackup, w₁) ∧
        replaceMethod g mmap w₁ c.targetMethod c.hookMethod false = some (resHook, w') ∧
        (resBackup ≠ 0 ∨ resHook ≠ 0) ∧
        ∀ m ∈ pages, (m = c.backupMethod → resBackup ≠ 0) →
          (m = c.targetMethod → resHook ≠ 0) → KeptUpToFlags g c w w' m := by
  intro g mmap w c
  have hres : (c.exec g mmap w).map (fun r => (r.1, r.2.made)) =
      some (1, [⟨0x11000, 0x2000, NULL⟩]) := by decide +kernel
  rcases Option.map_eq_some_iff.mp hres with ⟨⟨res, w'⟩, hr, hone⟩
  obtain ⟨rfl, hmade⟩ := Prod.mk.inj hone
  have hplaced : Placement g mmap pages :=
    (placement_pages (by decide) (by decide)).mono subset_rfl fun _ _ => failsFirst_eq_some
  have hc : c.Of pages := by
    unfold HookCall.Of
    decide
  exact ⟨w', hr, hmade, failed_exec (by decide) hplaced poolOk_initial hc hr (by decide)⟩

/-- On Android N a failed call leaves the target with changed flags. -/
theorem failed_exec_changes_flags :
    ¬ ∀ res w', (HookCall.mk 0x1000 0x2000 NULL).exec (initialized .arm 24) (fun _ => none)
        (.initial fun _ => 0) = some (res, w') → res ≠ 0 →
      ∀ m ∈ [0x1000, 0x2000],
        (initialized .arm 24).entryPoint w'.mem m =
            (initialized .arm 24).entryPoint (fun _ => 0) m ∧
          (initialized .arm 24).getFlags w'.mem m =
            (initialized .arm 24).getFlags (fun _ => 0) m := by
  intro h
  have hres : ((HookCall.mk 0x1000 0x2000 NULL).exec (initialized .arm 24) (fun _ => none)
      (.initial fun _ => 0)).map (fun r => (r.1, (initialized .arm 24).getFlags r.2.mem 0x1000)) =
      some (1, 0x01000000) := by decide +kernel
  rcases Option.map_eq_some_iff.mp hres with ⟨⟨res, w'⟩, hr, hone⟩
  rcases Prod.mk.inj hone with ⟨rfl, hflags⟩
  have hkept := (h 1 w' hr (by decide) 0x1000 (by simp)).2
  rw [hflags] at hkept
  revert hkept
  decide +kernel

end Failed

/-! ## Levels `init` does not handle -/

section Unhandled

variable {sdkVersion : Int}

/-- From N on: the flags `setNonCompilable` makes of the first word of an
`ArtMethod` on an unhandled level. -/
def AlreadyNonCompilable (word : BitVec 32) : Prop :=
  (word ||| 0x01000000) &&& ~~~0x00200000 = word

instance (word : BitVec 32) : Decidable (AlreadyNonCompilable word) :=
  inferInstanceAs (Decidable (_ = _))

/-- The call gets no block, and finds the first words of target and backup with
the bits it would set set and those it would clear clear. -/
structure Harmless (sdkVersion : Int) (mmap : Mmap) (w : World) (c : HookCall) : Prop where
  no_block : NoBlock mmap w.pool.mmaps ∧ (c.backupMethod ≠ NULL → NoBlock mmap (w.pool.mmaps + 1))
  words : androidApiN ≤ sdkVersion → AlreadyNonCompilable (read32 w.mem c.targetMethod) ∧
    (c.backupMethod ≠ NULL → AlreadyNonCompilable (read32 w.mem c.backupMethod))

/-- The calls of a run with their results; `none` when one faults. -/
def hookRun (g : Statics abi) (mmap : Mmap) (w : World) (cs : List HookCall) :
    Option (List Nat × World) :=
  cs.foldlM (fun (rs, w) c => (c.exec g mmap w).map fun (res, w) => (rs ++ [res], w)) ([], w)

theorem write32_read32 (mem : Memory) (a : Nat) : write32 mem a (read32 mem a) = mem := by
  have hlt : readWord mem a 4 < 2 ^ 32 := readWord_lt mem a 4
  rw [write32, read32, BitVec.toNat_ofNat, Nat.mod_eq_of_lt hlt]
  exact writeWord_readWord mem a 4

/-- Writing flags that are there already changes nothing. -/
theorem setNonCompilable_unhandled (h : sdkVersion ∉ handledLevels) {mem : Memory} {m : Nat}
    (hword : androidApiN ≤ sdkVersion → AlreadyNonCompilable (read32 mem m)) :
    setNonCompilable (initialized abi sdkVersion) mem m = mem := by
  rw [initialized_unhandled h, setNonCompilable]
  split
  · rfl
  · next hge =>
    -- the levels from N to T are all handled
    have hlarge : androidApiR ≤ sdkVersion := by
      simp only [handledLevels, List.mem_cons, List.not_mem_nil, or_false, not_or] at h
      simp only [androidApiN, androidApiT, androidApiSL, androidApiS, androidApiR, androidApiQ,
        androidApiP, androidApiOMr1, androidApiO, androidApiNMr1] at *
      omega
    have hflags : AlreadyNonCompilable (read32 mem m) := hword (not_lt.mp hge)
    simp only [Statics.setFlags, Statics.getFlags, Statics.nonCompilable, Statics.initial,
      Nat.add_zero, if_pos hlarge]
    rw [show (read32 mem m ||| 0x01000000) &&& ~~~0x00200000 = read32 mem m from hflags,
      write32_read32]

/-- A harmless call reports failure and leaves the memory alone, and the next
call starts without a block again. -/
theorem Harmless.exec {c : HookCall} (h : Harmless sdkVersion mmap w c) (abi : Abi)
    (hsdk : sdkVersion ∉ handledLevels) (hv : Virgin w.pool) :
    ∃ res n, c.exec (initialized abi sdkVersion) mmap w =
      some (res, ⟨w.mem, ⟨NULL, NULL, n⟩, w.made⟩) ∧ res ≠ 0 := by
  -- the flags are left alone, so only the pool can change
  have hprep : c.prepare (initialized abi sdkVersion) w = w := by
    have ht : setNonCompilable (initialized abi sdkVersion) w.mem c.targetMethod = w.mem :=
      setNonCompilable_unhandled hsdk fun hn => (h.words hn).1
    have hmem : setBothNonCompilable (initialized abi sdkVersion) w.mem c.targetMethod
        c.backupMethod = w.mem := by
      rw [setBothNonCompilable_eq, ht]
      split
      · rfl
      · next hne => exact setNonCompilable_unhandled hsdk fun hn => (h.words hn).2 hne
    rw [HookCall.prepare, hmem]
  by_cases hnull : c.backupMethod = NULL
  · -- without a backup the hook step is refused
    have hbacked : c.backUp (initialized abi sdkVersion) mmap w = some (0, w) := by
      rw [HookCall.backUp, if_neg (not_not.mpr hnull), hprep]
    exact ⟨1, _, HookCall.exec_eq_some.mpr ⟨0, w, 1, hbacked,
      replaceMethod_of_virgin hv h.no_block.1 _ _ _, rfl⟩, by decide⟩
  · -- with a backup both steps are refused, the second one on a torn pool
    have hbacked : c.backUp (initialized abi sdkVersion) mmap w =
        some (1, ⟨w.mem, ⟨NULL, NULL, w.pool.mmaps + 1⟩, w.made⟩) := by
      rw [HookCall.backUp, if_pos hnull, hprep]
      exact replaceMethod_of_virgin hv h.no_block.1 _ _ _
    exact ⟨2, _, HookCall.exec_eq_some.mpr ⟨1, _, 1, hbacked,
      replaceMethod_of_virgin ⟨rfl, rfl⟩ (h.no_block.2 hnull) _ _ _, rfl⟩, by decide⟩

theorem hookRun_snoc (cs : List HookCall) (c : HookCall) :
    hookRun g mmap w (cs ++ [c]) =
      (hookRun g mmap w cs).bind fun (rs, w) =>
        (c.exec g mmap w).map fun (res, w) => (rs ++ [res], w) := by
  simp [hookRun, List.foldlM_append]

/-- A run of harmless calls goes on without a block. -/
theorem hookRun_harmless (hsdk : sdkVersion ∉ handledLevels) (mem : Memory) (cs : List HookCall)
    (h : ∀ pre c post, cs = pre ++ c :: post → ∀ rs w,
      hookRun (initialized abi sdkVersion) mmap (.initial mem) pre = some (rs, w) →
        Harmless sdkVersion mmap w c) :
    ∃ rs n, hookRun (initialized abi sdkVersion) mmap (.initial mem) cs =
      some (rs, ⟨mem, ⟨NULL, NULL, n⟩, []⟩) ∧ rs.length = cs.length ∧ ∀ r ∈ rs, r ≠ 0 := by
  induction cs using List.reverseRecOn with
  | nil => exact ⟨[], 0, rfl, rfl, by simp⟩
  | append_singleton cs c ih =>
      rcases ih fun pre d post hd => h pre d (post ++ [c]) (by simp [hd]) with
        ⟨rs, n, hrun, hlen, hrs⟩
      rcases (h cs c [] rfl rs _ hrun).exec abi hsdk ⟨rfl, rfl⟩ with ⟨res, k, hexec, hres⟩
      refine ⟨rs ++ [res], k, ?_, by simp [hlen], ?_⟩
      · simp [hookRun_snoc, hrun, hexec]
      · simp only [List.mem_append, List.mem_singleton]
        rintro r (hr | rfl)
        · exact hrs r hr
        · exact hres

/-- On a level `init` does not handle, a run of harmless calls is refused: in
every state it passes through, all calls so far have reported failure and no
byte of memory has changed. -/
theorem unhandled_run_refused (hsdk : sdkVersion ∉ handledLevels) (mem : Memory)
    (cs : List HookCall)
    (h : ∀ pre c post, cs = pre ++ c :: post → ∀ rs w,
      hookRun (initialized abi sdkVersion) mmap (.initial mem) pre = some (rs, w) →
        Harmless sdkVersion mmap w c) :
    ∀ pre post, cs = pre ++ post → ∃ rs w,
      hookRun (initialized abi sdkVersion) mmap (.initial mem) pre = some (rs, w) ∧
        rs.length = pre.length ∧ (∀ r ∈ rs, r ≠ 0) ∧ w.mem = mem := by
  rintro pre post rfl
  obtain ⟨rs, n, hrun, hlen, hrs⟩ := hookRun_harmless hsdk mem pre fun pre' c post' hd =>
    h pre' c (post' ++ post) (by simp [hd])
  exact ⟨rs, _, hrun, hlen, hrs, rfl⟩

/-- Level 34 and a memory of ones, in which the flags are there already: two calls, the
first one with a backup. -/
theorem unhandled_run_refused_android14 :
    let cs := [HookCall.mk 0x1000 0x2000 0x3000, ⟨0x2000, 0x4000, NULL⟩]
    ∀ pre post, cs = pre ++ post → ∃ rs w,
      hookRun (initialized .arm 34) (fun _ => none) (.initial fun _ => 1) pre = some (rs, w) ∧
        rs.length = pre.length ∧ (∀ r ∈ rs, r ≠ 0) ∧ w.mem = fun _ => 1 := by
  intro cs
  refine unhandled_run_refused (by decide) (fun _ => 1) cs fun pre c post h rs w hrun => ?_
  refine ⟨by simp [NoBlock], fun _ => ?_⟩
  rcases pre with - | ⟨c₁, - | ⟨c₂, pre⟩⟩
  · obtain ⟨rfl, -⟩ := List.cons.inj h
    obtain ⟨-, rfl⟩ := Prod.mk.inj (Option.some.inj hrun)
    exact ⟨by decide, fun _ => by decide⟩
  · -- the first call has left the words alone
    obtain ⟨rfl, hrest⟩ := List.cons.inj h
    obtain ⟨rfl, -⟩ := List.cons.inj hrest
    have hfirst : (hookRun (initialized .arm 34) (fun _ => none) (.initial fun _ => 1)
        [⟨0x1000, 0x2000, 0x3000⟩]).map (fun r => read32 r.2.mem 0x2000) = some 0x01010101 := by
      decide +kernel
    rw [hrun] at hfirst
    have hword : read32 w.mem 0x2000 = 0x01010101 := Option.some.inj hfirst
    exact ⟨hword ▸ by decide, fun hne => absurd rfl hne⟩
  · simp [cs] at h

/-- On levels 20 and 34 a hook is reported as installed, and the first word of the target
is overwritten with the address of the trampoline. -/
theorem unhandled_run_corrupts :
    ¬ ∃ sdkVersion ∈ [20, 34], ∀ rs w,
      hookRun (initialized .arm sdkVersion) (mmapRow 0x10000 1) (.initial fun _ => 0)
          [⟨0x1000, 0x2000, NULL⟩] = some (rs, w) →
        (∀ r ∈ rs, r ≠ 0) ∧ readWord w.mem 0x1000 4 = readWord (fun _ => 0) 0x1000 4 := by
  rintro ⟨sdkVersion, hlevel, h⟩
  have hres : ∀ sdkVersion ∈ [20, 34], (hookRun (initialized .arm sdkVersion) (mmapRow 0x10000 1)
      (.initial fun _ => 0) [⟨0x1000, 0x2000, NULL⟩]).map
        (fun r => (r.1, readWord r.2.mem 0x1000 4)) = some ([0], 0x10004) := by decide +kernel
  rcases Option.map_eq_some_iff.mp (hres sdkVersion hlevel) with ⟨⟨rs, w⟩, hrun, hone⟩
  rcases Prod.mk.inj hone with ⟨rfl, -⟩
  exact (h [0] w hrun).1 0 List.mem_cons_self rfl

end Unhandled

end Yahfa
