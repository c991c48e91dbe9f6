import Yahfa.HookSpec
import Yahfa.Hooking
import Mathlib.Data.List.Pairwise

/-!
# Dispatch: where an invocation goes

Control is at an address, with a method argument. A trampoline passes it on: a
hook trampoline to the entry point its method has now, a backup trampoline to
the entry point it was generated with.

`Sim` relates the memory to the entry points of `Hooking`: every entry point of
a method is its original one or the address of a trampoline. `doBackupAndHook`
refines `Hooking.install` under it (`Sim.exec`), and an invocation
runs through trampolines as `Hooking.Lands` says (`Sim.reaches`, `Sim.lands`).
-/

namespace Yahfa

open Bytes Hooking

variable {abi : Abi} {g : Statics abi} {mmap : Mmap} {M : Set Nat} {mem₀ : Memory} {w w' : World}

/-! ## Methods, blocks and control -/

/-- What ART guarantees about the methods `M` in the memory `mem₀`: besides where
they are, that every entry point is real code. -/
structure Layout (g : Statics abi) (mmap : Mmap) (M : Set Nat) (mem₀ : Memory) : Prop
    extends Placement g mmap M where
  entry_ne_null : ∀ m ∈ M, g.entryPoint mem₀ m ≠ NULL
  entry_outside : ∀ m ∈ M, ∀ k b, mmap k = some b →
    ¬ (blockSpan b).Contains (g.entryPoint mem₀ m)

/-- Where execution is, and its method argument. -/
structure Control where
  pc : Nat
  arg : Nat
deriving DecidableEq, Repr

/-- Invoking a method jumps to its entry point with the method as argument. -/
def invoke (g : Statics abi) (w : World) (m : Nat) : Control := ⟨g.entryPoint w.mem m, m⟩

/-- What a trampoline does with control. -/
inductive Transfer (g : Statics abi) (w : World) : Control → Control → Prop
  | hook {t : Trampoline} (ht : t ∈ w.made) (hkind : t.entrypoint = NULL) (a : Nat) :
      Transfer g w ⟨t.addr, a⟩ ⟨g.entryPoint w.mem t.toMethod, t.toMethod⟩
  | backup {t : Trampoline} (ht : t ∈ w.made) (hkind : t.entrypoint ≠ NULL) (a : Nat) :
      Transfer g w ⟨t.addr, a⟩ ⟨t.entrypoint, t.toMethod⟩

/-- The address lies in none of the blocks the pool has used. -/
def OutsidePool (mmap : Mmap) (p : Pool) (pc : Nat) : Prop :=
  ∀ k < p.mmaps, ∀ b, mmap k = some b → ¬ (blockSpan b).Contains pc

/-- Invoking `m` ends in the original code of `l`, with `l` as argument. -/
def EndsInCode (g : Statics abi) (mmap : Mmap) (mem₀ : Memory) (w : World) (m l : Nat) : Prop :=
  Relation.ReflTransGen (Transfer g w) (invoke g w m) ⟨g.entryPoint mem₀ l, l⟩ ∧
    OutsidePool mmap w.pool (g.entryPoint mem₀ l)

/-- A trampoline is known by its address. -/
theorem PoolInv.eq_of_addr {p : Pool} {ts : List Trampoline} {t u : Trampoline}
    (h : PoolInv abi mmap p ts) (ht : t ∈ ts) (hu : u ∈ ts) (haddr : t.addr = u.addr) : t = u := by
  by_contra hne
  have : Std.Symm fun t u : Trampoline => (t.span abi).Apart (u.span abi) :=
    ⟨fun _ _ hs => hs.symm⟩
  have happ := h.apart.forall ht hu hne
  exact happ.not_contains t.contains_addr (haddr ▸ u.contains_addr)

/-! ## The simulation relation -/

/-- The entry point `e` stands at an address: that of the original code of a
method, or of a trampoline. -/
inductive Stands (g : Statics abi) (M : Set Nat) (mem₀ : Memory) (made : List Trampoline) :
    Entry Nat → Nat → Prop
  | code {m : Nat} (hm : m ∈ M) : Stands g M mem₀ made (.code m) (g.entryPoint mem₀ m)
  | hook {t : Trampoline} (ht : t ∈ made) (hkind : t.entrypoint = NULL) :
      Stands g M mem₀ made (.hook t.toMethod) t.addr
  | backup {t : Trampoline} {e : Entry Nat} (ht : t ∈ made) (hkind : t.entrypoint ≠ NULL)
      (he : Stands g M mem₀ made e t.entrypoint) :
      Stands g M mem₀ made (.backup t.toMethod e) t.addr

/-- The world simulates the entry points `E`. -/
structure Sim (g : Statics abi) (mmap : Mmap) (M : Set Nat) (mem₀ : Memory) (w : World)
    (E : Nat → Entry Nat) : Prop where
  pool : PoolInv abi mmap w.pool w.made
  methods : ∀ t ∈ w.made, t.toMethod ∈ M
  stands : ∀ m ∈ M, Stands g M mem₀ w.made (E m) (g.entryPoint w.mem m)

/-- Later trampolines do not move an entry point. -/
theorem Stands.mono {ts us : List Trampoline} (hsub : ∀ t ∈ ts, t ∈ us) {e : Entry Nat} {a : Nat}
    (h : Stands g M mem₀ ts e a) : Stands g M mem₀ us e a := by
  induction h with
  | code hm => exact .code hm
  | hook ht hkind => exact .hook (hsub _ ht) hkind
  | backup ht hkind _ ih => exact .backup (hsub _ ht) hkind ih

theorem Stands.ne_null {p : Pool} {ts : List Trampoline} (hlay : Layout g mmap M mem₀)
    (hpool : PoolInv abi mmap p ts) {e : Entry Nat} {a : Nat} (h : Stands g M mem₀ ts e a) :
    a ≠ NULL := by
  cases h with
  | code hm => exact hlay.entry_ne_null _ hm
  | hook ht _ => exact hpool.addr_ne_null ht
  | backup ht _ _ => exact hpool.addr_ne_null ht

theorem sim_initial : Sim g mmap M mem₀ (.initial mem₀) (run []) where
  pool := poolInv_initial
  methods := by simp [World.initial]
  stands := fun _ hm => .code hm

/-! ## Hooking refines installing -/

section Refinement

variable {E : Nat → Entry Nat} {t u : Nat} {isBackup : Bool}

/-- Writes that leave the entry points of the methods alone keep the relation. -/
theorem Sim.of_entryPoint (h : Sim g mmap M mem₀ w E) {mem : Memory}
    (hmem : ∀ m ∈ M, g.entryPoint mem m = g.entryPoint w.mem m) :
    Sim g mmap M mem₀ { w with mem := mem } E where
  pool := h.pool
  methods := h.methods
  stands := fun m hm => (hmem m hm).symm ▸ h.stands m hm

/-- A successful `replaceMethod` lays one trampoline down, keeps the pool
invariant and changes the entry point of `fromMethod` only. -/
theorem Sim.replaceMethod_lays (hlay : Layout g mmap M mem₀) (hf : EntryApart g)
    (h : Sim g mmap M mem₀ w E) (ht : t ∈ M)
    (hr : replaceMethod g mmap w t u isBackup = some (0, w')) :
    ∃ T : Trampoline, T.toMethod = u ∧ T.entrypoint = hardcodedEntrypoint g w.mem u isBackup ∧
      w'.made = T :: w.made ∧ PoolInv abi mmap w'.pool w'.made ∧
      ∀ m ∈ M, g.entryPoint w'.mem m = if m = t then T.addr else g.entryPoint w.mem m := by
  rcases h.pool.replaceMethod hlay.toPlacement hr with ⟨T, hu, he, hred, hpool⟩
  exact ⟨T, hu, he, hred.made, hred.made.symm ▸ hpool,
    fun m hm => hred.entryPoint hlay.toPlacement hf ht hm⟩

/-- Redirecting a method to a hook. -/
theorem Sim.replaceMethod_hook (hlay : Layout g mmap M mem₀) (hf : EntryApart g)
    (h : Sim g mmap M mem₀ w E) (ht : t ∈ M) (hu : u ∈ M)
    (hr : replaceMethod g mmap w t u false = some (0, w')) :
    Sim g mmap M mem₀ w' (Function.update E t (.hook u)) := by
  rcases h.replaceMethod_lays hlay hf ht hr with ⟨T, rfl, he, hmade, hpool, hentry⟩
  have hT : T ∈ w'.made := by simp [hmade]
  refine ⟨hpool, ?_, fun m hm => ?_⟩
  · simpa [hmade] using ⟨hu, h.methods⟩
  · rw [hentry m hm]
    by_cases hmt : m = t
    · subst hmt
      simpa using Stands.hook hT he
    · rw [if_neg hmt, Function.update_of_ne hmt]
      exact (h.stands m hm).mono (by simp +contextual [hmade])

/-- Redirecting a backup to the entry point its target has now. -/
theorem Sim.replaceMethod_backup (hlay : Layout g mmap M mem₀) (hf : EntryApart g)
    (h : Sim g mmap M mem₀ w E) (ht : t ∈ M) (hu : u ∈ M)
    (hr : replaceMethod g mmap w t u true = some (0, w')) :
    Sim g mmap M mem₀ w' (Function.update E t (.backup u (E u))) := by
  rcases h.replaceMethod_lays hlay hf ht hr with ⟨T, rfl, he, hmade, hpool, hentry⟩
  have hT : T ∈ w'.made := by simp [hmade]
  have hmono : ∀ {e : Entry Nat} {a : Nat}, Stands g M mem₀ w.made e a →
      Stands g M mem₀ w'.made e a := fun hs => hs.mono (by simp +contextual [hmade])
  refine ⟨hpool, ?_, fun m hm => ?_⟩
  · simpa [hmade] using ⟨hu, h.methods⟩
  · rw [hentry m hm]
    by_cases hmt : m = t
    · subst hmt
      have hsaved : Stands g M mem₀ w.made (E T.toMethod) T.entrypoint := he ▸ h.stands _ hu
      simpa using Stands.backup hT (hsaved.ne_null hlay h.pool) (hmono hsaved)
    · rw [if_neg hmt, Function.update_of_ne hmt]
      exact hmono (h.stands m hm)

/-- The request a call makes. -/
def HookCall.request (c : HookCall) : Call Nat :=
  ⟨c.targetMethod, c.hookMethod, if c.backupMethod = NULL then none else some c.backupMethod⟩

/-- The first step touches no entry point. -/
theorem Sim.prepare (hlay : Layout g mmap M mem₀) (hf : EntryApart g)
    (h : Sim g mmap M mem₀ w E) {c : HookCall} (hc : c.Of M) :
    Sim g mmap M mem₀ (c.prepare g w) E :=
  h.of_entryPoint fun m hm => entryPoint_setBothNonCompilable (hlay.methods_apart m hm _ hc.1)
    (fun hne => hlay.methods_apart m hm _ (hc.2.2 hne)) hf

/-- A call in which every allocation succeeds is an installation. -/
theorem Sim.exec (hlay : Layout g mmap M mem₀) (hf : EntryApart g)
    (h : Sim g mmap M mem₀ w E) {c : HookCall} (hc : c.Of M)
    (hr : c.exec g mmap w = some (0, w')) : Sim g mmap M mem₀ w' (install E c.request) := by
  have hprep := h.prepare hlay hf hc
  rcases hc with ⟨ht, hh, hb⟩
  rcases HookCall.exec_eq_some.mp hr with ⟨resBackup, w₁, resHook, hbacked, hhooked, hres⟩
  obtain ⟨rfl, rfl⟩ : resBackup = 0 ∧ resHook = 0 := by omega
  rw [HookCall.backUp] at hbacked
  split at hbacked
  · next hne =>
    have h₁ := hprep.replaceMethod_backup hlay hf (hb hne) ht hbacked
    have h₂ := h₁.replaceMethod_hook hlay hf ht hh hhooked
    simpa [install, HookCall.request, hne] using h₂
  · next hnull =>
    rcases Prod.mk.inj (Option.some.inj hbacked) with ⟨-, rfl⟩
    have h₂ := hprep.replaceMethod_hook hlay hf ht hh hhooked
    simpa [install, HookCall.request, not_not.mp hnull] using h₂

end Refinement

/-! ## Invocations -/

section Invocations

variable {E : Nat → Entry Nat} {e : Entry Nat} {pc a m l : Nat} {c c₁ c₂ : Control}

/-- A run through trampolines follows the abstract entry points. -/
theorem Sim.reaches (h : Sim g mmap M mem₀ w E) {a' : Nat} (hl : Lands E e a l a')
    (hpc : Stands g M mem₀ w.made e pc) :
    l ∈ M ∧ Relation.ReflTransGen (Transfer g w) ⟨pc, a⟩ ⟨g.entryPoint mem₀ l, a'⟩ := by
  induction hl generalizing pc with
  | code =>
      cases hpc with
      | code hm => exact ⟨hm, .refl⟩
  | hook _ ih =>
      cases hpc with
      | hook ht hkind =>
          rcases ih (h.stands _ (h.methods _ ht)) with ⟨hm, hpath⟩
          exact ⟨hm, .head (.hook ht hkind _) hpath⟩
  | backup _ ih =>
      cases hpc with
      | backup ht hkind he =>
          rcases ih he with ⟨hm, hpath⟩
          exact ⟨hm, .head (.backup ht hkind _) hpath⟩

/-- A trampoline has one way to pass control on. -/
theorem PoolInv.transfer_eq (hpool : PoolInv abi mmap w.pool w.made) {t : Trampoline}
    (ht : t ∈ w.made) (hstep : Transfer g w ⟨t.addr, a⟩ c) :
    c = ⟨if t.entrypoint = NULL then g.entryPoint w.mem t.toMethod else t.entrypoint,
      t.toMethod⟩ := by
  generalize hstart : (⟨t.addr, a⟩ : Control) = c₀ at hstep
  cases hstep with
  | hook hu hkind =>
      rcases hpool.eq_of_addr ht hu (Control.mk.inj hstart).1 with rfl
      rw [if_pos hkind]
  | backup hu hkind =>
      rcases hpool.eq_of_addr ht hu (Control.mk.inj hstart).1 with rfl
      rw [if_neg hkind]

/-- A run through trampolines that leaves the pool has landed. -/
theorem Sim.lands (h : Sim g mmap M mem₀ w E)
    (hpath : Relation.ReflTransGen (Transfer g w) ⟨pc, a⟩ c) (hc : OutsidePool mmap w.pool c.pc)
    (hpc : Stands g M mem₀ w.made e pc) : ∃ l a', Lands E e a l a' := by
  -- a trampoline's own address is in the pool
  have hinside : ∀ t ∈ w.made, ¬ OutsidePool mmap w.pool t.addr := fun t ht hout => by
    rcases h.pool.addr_mapped ht with ⟨k, hk, b, hb, -, hcontains⟩
    exact hout k hk b hb hcontains
  generalize hstart : (⟨pc, a⟩ : Control) = c₀ at hpath
  induction hpath using Relation.ReflTransGen.head_induction_on generalizing pc a e with
  | refl =>
      subst hstart
      cases hpc with
      | code hm => exact ⟨_, _, .code⟩
      | hook ht _ => exact absurd hc (hinside _ ht)
      | backup ht _ _ => exact absurd hc (hinside _ ht)
  | head hstep _ ih =>
      subst hstart
      cases hpc with
      | code hm =>
          exact ⟨_, _, .code⟩
      | @hook t ht hkind =>
          have hnext := h.pool.transfer_eq ht hstep
          rw [if_pos hkind] at hnext
          rcases ih (h.stands _ (h.methods t ht)) hnext.symm with ⟨l, a', hl⟩
          exact ⟨l, a', .hook hl⟩
      | @backup t e ht hkind he =>
          have hnext := h.pool.transfer_eq ht hstep
          rw [if_neg hkind] at hnext
          rcases ih he hnext.symm with ⟨l, a', hl⟩
          exact ⟨l, a', .backup hl⟩

end Invocations

/-! ## Runs -/

section Runs

/-- A sequence of calls all of which report success; `none` as soon as one does
not. -/
def hookAll (g : Statics abi) (mmap : Mmap) (w : World) (cs : List HookCall) : Option World :=
  cs.foldlM (fun w c => (c.exec g mmap w).bind fun (res, w) => if res = 0 then some w else none) w

theorem hookAll_cons {c : HookCall} {cs : List HookCall} :
    hookAll g mmap w (c :: cs) = some w' ↔
      ∃ w₁, c.exec g mmap w = some (0, w₁) ∧ hookAll g mmap w₁ cs = some w' := by
  simp only [hookAll, List.foldlM_cons, Option.bind_eq_bind, Option.bind_eq_some_iff, Prod.exists]
  constructor
  · rintro ⟨w₁, ⟨res, w₂, hcall, hres⟩, hrest⟩
    split at hres
    · next h0 =>
      subst h0
      rcases Option.some.inj hres with rfl
      exact ⟨w₂, hcall, hrest⟩
    · cases hres
  · rintro ⟨w₁, hcall, hrest⟩
    exact ⟨w₁, ⟨0, w₁, hcall, rfl⟩, hrest⟩

/-- A run is a run of installations. -/
theorem Sim.hookAll {E : Nat → Entry Nat} (hlay : Layout g mmap M mem₀) (hf : EntryApart g)
    (h : Sim g mmap M mem₀ w E) {cs : List HookCall} (hcs : ∀ c ∈ cs, c.Of M)
    (hr : hookAll g mmap w cs = some w') :
    Sim g mmap M mem₀ w' ((cs.map HookCall.request).foldl install E) := by
  induction cs generalizing w E with
  | nil =>
      obtain rfl : w = w' := by simpa [Yahfa.hookAll] using hr
      exact h
  | cons c cs ih =>
      rcases hookAll_cons.mp hr with ⟨w₁, hcall, hrest⟩
      exact ih (h.exec hlay hf (hcs c List.mem_cons_self) hcall)
        (fun d hd => hcs d (List.mem_cons_of_mem c hd)) hrest

/-- A run from the initial state. -/
theorem sim_hookAll (hlay : Layout g mmap M mem₀) (hf : EntryApart g) {cs : List HookCall}
    (hcs : ∀ c ∈ cs, c.Of M) (hr : Yahfa.hookAll g mmap (.initial mem₀) cs = some w) :
    Sim g mmap M mem₀ w (run (cs.map HookCall.request)) :=
  sim_initial.hookAll hlay hf hcs hr

/-- A `replaceMethod` for which `mmap` succeeds is successful. -/
theorem Sim.exists_replaceMethod {E : Nat → Entry Nat} (hlay : Layout g mmap M mem₀)
    (h : Sim g mmap M mem₀ w E) (hall : AllSucceed mmap (w.pool.mmaps + 1)) (t u : Nat)
    (isBackup : Bool) :
    ∃ w', replaceMethod g mmap w t u isBackup = some (0, w') ∧
      w'.pool.mmaps ≤ w.pool.mmaps + 1 := by
  have hpos := trampolineSize_pos abi (hardcodedEntrypoint g w.mem u isBackup)
  rcases replaceMethod_cases g mmap w t u isBackup with
    ⟨-, T, -, -, -, -, -, heq⟩ | ⟨-, hfail, -, -⟩ | ⟨hroom, h0, -⟩
  · exact ⟨_, heq, genTrampoline_mmaps_le_succ⟩
  · rcases Option.ne_none_iff_exists'.mp (hall _ (Nat.lt_succ_self _)) with ⟨b, hb⟩
    exact absurd (hfail b hb) (hlay.block_ne_null _ b hb)
  · rcases h.pool.intact with hv | hin
    · have hend : w.pool.trampolineSpaceEnd = 0 := hv.2
      omega
    · have hend : w.pool.trampolineSpaceEnd ≠ NULL := by
        simp only [NULL] at *
        omega
      exact absurd ⟨h0, hend⟩ hin.not_torn

theorem Sim.exists_exec {E : Nat → Entry Nat} (hlay : Layout g mmap M mem₀)
    (hf : EntryApart g) (h : Sim g mmap M mem₀ w E)
    (hall : AllSucceed mmap (w.pool.mmaps + 2)) {c : HookCall} (hc : c.Of M) :
    ∃ w', c.exec g mmap w = some (0, w') ∧ w'.pool.mmaps ≤ w.pool.mmaps + 2 := by
  have hprep := h.prepare hlay hf hc
  have hmmaps : (c.prepare g w).pool.mmaps = w.pool.mmaps := rfl
  by_cases hnull : c.backupMethod = NULL
  · obtain ⟨w₂, hhooked, hle⟩ := hprep.exists_replaceMethod hlay
      (fun k hk => hall k (by omega)) c.targetMethod c.hookMethod false
    have hbacked : c.backUp g mmap w = some (0, c.prepare g w) := by
      simp [HookCall.backUp, hnull]
    exact ⟨w₂, HookCall.exec_eq_some.mpr ⟨0, _, 0, hbacked, hhooked, rfl⟩, by omega⟩
  · obtain ⟨w₁, hbacked, hle⟩ := hprep.exists_replaceMethod hlay
      (fun k hk => hall k (by omega)) c.backupMethod c.targetMethod true
    have h₁ := hprep.replaceMethod_backup hlay hf (hc.2.2 hnull) hc.1 hbacked
    obtain ⟨w₂, hhooked, hle'⟩ := h₁.exists_replaceMethod hlay
      (fun k hk => hall k (by omega)) c.targetMethod c.hookMethod false
    have hbacked' : c.backUp g mmap w = some (0, w₁) := by
      simpa [HookCall.backUp, hnull] using hbacked
    exact ⟨w₂, HookCall.exec_eq_some.mpr ⟨0, _, 0, hbacked', hhooked, rfl⟩, by omega⟩

/-- A run in which `mmap` does not fail is carried out: each call makes at most
two `mmap` calls. -/
theorem Sim.exists_hookAll {E : Nat → Entry Nat} (hlay : Layout g mmap M mem₀)
    (hf : EntryApart g) (h : Sim g mmap M mem₀ w E) {cs : List HookCall}
    (hcs : ∀ c ∈ cs, c.Of M) (hall : AllSucceed mmap (w.pool.mmaps + 2 * cs.length)) :
    ∃ w', Yahfa.hookAll g mmap w cs = some w' := by
  induction cs generalizing w E with
  | nil => exact ⟨w, rfl⟩
  | cons c cs ih =>
      have hc := hcs c List.mem_cons_self
      rw [List.length_cons] at hall
      rcases h.exists_exec hlay hf (fun k hk => hall k (by omega)) hc with ⟨w₁, hcall, hle⟩
      obtain ⟨w', hrest⟩ := ih (h.exec hlay hf hc hcall)
        (fun d hd => hcs d (List.mem_cons_of_mem c hd)) (fun k hk => hall k (by omega))
      exact ⟨w', hookAll_cons.mpr ⟨w₁, hcall, hrest⟩⟩

/-- Invoking a method whose abstract entry point lands ends in original code. -/
theorem Sim.endsInCode {E : Nat → Entry Nat} {m l : Nat} (hlay : Layout g mmap M mem₀)
    (h : Sim g mmap M mem₀ w E) (hm : m ∈ M) (hl : Lands E (E m) m l l) :
    EndsInCode g mmap mem₀ w m l := by
  rcases h.reaches hl (h.stands m hm) with ⟨hlM, hpath⟩
  exact ⟨hpath, fun k _ b hb => hlay.entry_outside l hlM k b hb⟩

/-- After calls in which every allocation succeeded, invoking a method that is no
backup ends in the original code of the last method on its chain of latest
hooks; invoking a backup ends in the original code of its target, or where the
hook that the target had at the time ends. -/
theorem hookAll_dispatch {sdkVersion : Int} (hsdk : sdkVersion ∈ handledLevels)
    (hlay : Layout (initialized abi sdkVersion) mmap M mem₀) {cs : List HookCall}
    (hcs : ∀ c ∈ cs, c.Of M)
    (hr : Yahfa.hookAll (initialized abi sdkVersion) mmap (.initial mem₀) cs = some w)
    (hproper : ProperBackups (cs.map HookCall.request))
    (hacyclic : Chain.Acyclic (latestHook (cs.map HookCall.request))) :
    (∀ m ∈ M, m ∉ backups (cs.map HookCall.request) →
      ∃ l, Chain.Ends (latestHook (cs.map HookCall.request)) m l ∧
        EndsInCode (initialized abi sdkVersion) mmap mem₀ w m l) ∧
    (∀ pre c post, cs = pre ++ c :: post → c.backupMethod ≠ NULL →
      match latestHook (pre.map HookCall.request) c.targetMethod with
      | none => EndsInCode (initialized abi sdkVersion) mmap mem₀ w c.backupMethod c.targetMethod
      | some n => ∃ l, Chain.Ends (latestHook (cs.map HookCall.request)) n l ∧
          EndsInCode (initialized abi sdkVersion) mmap mem₀ w c.backupMethod l) := by
  have hsim := sim_hookAll hlay (entryApart_initialized (Or.inl hsdk)) hcs hr
  constructor
  · -- a method that is not a backup: follow the latest hooks to the end of their chain
    intro m hm hnot
    rcases exists_ends_latestHook hacyclic m with ⟨l, hl⟩
    exact ⟨l, hl, hsim.endsInCode hlay hm (lands_of_ends hproper hnot hl)⟩
  · -- a backup: where its target led before the call
    intro pre c post heq hb
    have hbM : c.backupMethod ∈ M := (hcs c (by simp [heq])).2.2 hb
    have hsplit : cs.map HookCall.request =
        pre.map HookCall.request ++ c.request :: post.map HookCall.request := by simp [heq]
    have hbackup : c.request.backup = some c.backupMethod := by simp [HookCall.request, hb]
    cases hn : latestHook (pre.map HookCall.request) c.targetMethod with
    | none => exact hsim.endsInCode hlay hbM (lands_backup_first hproper hsplit hbackup hn)
    | some n =>
        rcases exists_ends_latestHook hacyclic n with ⟨l, hl⟩
        exact ⟨l, hl, hsim.endsInCode hlay hbM (lands_backup_again hproper hsplit hbackup hn hl)⟩

/-- The methods on the pages on 32-bit Android Q, in a memory of ones. -/
theorem layout_ones {n : Nat} (hn : n ≤ 16) :
    Layout (initialized .arm 29) (mmapRow 0x10000 n) pages fun _ => 1 := by
  have hentry : ∀ m, (initialized .arm 29).entryPoint (fun _ => 1) m = 0x1010101 := by
    intro m
    change leValue 4 (fun _ => 1) = _
    decide
  refine ⟨placement_pages hn (by decide), ?_, ?_⟩
  · intro m _
    rw [hentry]
    decide
  · intro m _ k b hb
    rcases mmapRow_eq_some hb with ⟨hk, rfl⟩
    rw [hentry]
    simp only [Span.Contains, blockSpan, trampolineSpaceSize]
    omega

/-- A method is hooked twice, both times with a backup, and then its first hook is hooked
too. -/
def hookedAgain : List HookCall :=
  [⟨0x1000, 0x2000, 0x3000⟩, ⟨0x1000, 0x4000, 0x5000⟩, ⟨0x2000, 0x4000, NULL⟩]

theorem hookedAgain_of : ∀ c ∈ hookedAgain, c.Of pages := by
  unfold HookCall.Of
  decide

/-- Six blocks are enough for three calls. -/
theorem exists_hookedAgain : ∃ w, Yahfa.hookAll (initialized .arm 29) (mmapRow 0x10000 6)
    (.initial fun _ => 1) hookedAgain = some w := by
  refine sim_initial.exists_hookAll (layout_ones (by decide))
    (entryApart_initialized (Or.inl (by decide))) hookedAgain_of ?_
  unfold AllSucceed
  decide

/-- The target and its first hook end at its second one. -/
theorem hookedAgain_ends {m : Nat} (hm : m = 0x1000 ∨ m = 0x2000) :
    Chain.Ends (latestHook (hookedAgain.map HookCall.request)) m 0x4000 := by
  rcases hm with rfl | rfl <;> exact .step rfl (.done rfl)

theorem hookedAgain_acyclic :
    Chain.Acyclic (latestHook (hookedAgain.map HookCall.request)) := by
  refine Chain.acyclic_of_forall_ends fun m => ?_
  by_cases hm : m = 0x1000 ∨ m = 0x2000
  · exact ⟨_, hookedAgain_ends hm⟩
  · rcases not_or.mp hm with ⟨h₁, h₂⟩
    exact ⟨m, .done (by simp [hookedAgain, latestHook, HookCall.request, Ne.symm h₁, Ne.symm h₂])⟩

/-- The target and the second backup end in the code of the second hook, the first backup
in that of the target. -/
theorem hookAll_dispatch_again :
    let g := initialized .arm 29
    let mmap := mmapRow 0x10000 6
    ∃ w, Yahfa.hookAll g mmap (.initial fun _ => 1) hookedAgain = some w ∧
      EndsInCode g mmap (fun _ => 1) w 0x1000 0x4000 ∧
      EndsInCode g mmap (fun _ => 1) w 0x3000 0x1000 ∧
      EndsInCode g mmap (fun _ => 1) w 0x5000 0x4000 := by
  intro g mmap
  rcases exists_hookedAgain with ⟨w, hw⟩
  have hall := hookAll_dispatch (by decide) (layout_ones (by decide)) hookedAgain_of hw
    (by constructor <;> decide) hookedAgain_acyclic
  rcases hall.1 0x1000 (by decide) (by decide) with ⟨l, hl, htarget⟩
  obtain rfl := (hookedAgain_ends (.inl rfl)).unique hl
  rcases hall.2 [⟨0x1000, 0x2000, 0x3000⟩] ⟨0x1000, 0x4000, 0x5000⟩ _ rfl (by decide) with
    ⟨l, hl, hagain⟩
  obtain rfl := (hookedAgain_ends (.inr rfl)).unique hl
  exact ⟨w, hw, htarget, hall.2 [] _ _ rfl (by decide), hagain⟩

end Runs

end Yahfa
