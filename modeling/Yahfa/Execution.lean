import Yahfa.Footprint
import Yahfa.MachineCode

/-!
# Dispatch on the processor

`Dispatch` says where control goes when trampolines pass it on, `MachineCode`
what the bytes of one trampoline do. Here the two meet: whatever calls come
later, every trampoline stands in memory with its code (`Loaded`). So a processor
that starts at the entry point of a method follows the transfers of control
(`RunsIn.transfers`), through as many trampolines as there are, and arrives in
original code with the stack and the other registers as they were.
-/

namespace Yahfa

open Bytes Machine Hooking

variable {abi : Abi} {g : Statics abi} {mmap : Mmap} {M : Set Nat} {mem₀ : Memory} {w w' : World}

/-! ## Trampolines keep their code -/

/-- The offset `init` has set the trampolines up for. -/
def Statics.setup (g : Statics abi) : UInt8 := UInt8.ofNat g.offsetEntryPointFromQuickCompiledCode

/-- What `init` leaves: the template is set up for the offset of the quick entry
point, a small one, and the fields lie apart. -/
structure SetUp (g : Statics abi) : Prop where
  template : g.trampoline = setupTrampoline abi (trampoline abi) g.setup
  offset_lt : g.offsetEntryPointFromQuickCompiledCode < 128
  fields : FieldsApart g
  interpreter : InterpreterUpToM g

theorem setUp_initialized {sdkVersion : Int} (h : sdkVersion ∈ handledLevels) :
    SetUp (initialized abi sdkVersion) where
  template := initialized_trampoline abi sdkVersion
  offset_lt := offset_lt abi sdkVersion
  fields := fieldsApart_initialized h
  interpreter := interpreterUpToM_initialized h

theorem SetUp.toNat_setup (h : SetUp g) :
    g.setup.toNat = g.offsetEntryPointFromQuickCompiledCode :=
  UInt8.toNat_ofNat_of_lt' (h.offset_lt.trans (by decide))

/-- The trampoline stands in memory, aligned and with its code. -/
structure CodeAt (g : Statics abi) (mem : Memory) (t : Trampoline) : Prop where
  aligned : pointerSize abi ∣ t.base
  code : BytesAt mem t.base (code abi g.setup t.toMethod t.entrypoint)
  entrypoint_lt : t.entrypoint < addressSpace abi

/-- The code depends on the bytes of the trampoline only. -/
theorem CodeAt.congr {mem mem' : Memory} {t : Trampoline} (h : CodeAt g mem t)
    (hmem : ∀ a, (t.span abi).Contains a → mem' a = mem a) : CodeAt g mem' t where
  aligned := h.aligned
  code := h.code.congr fun i hi =>
    hmem _ ⟨Nat.le_add_right _ _, Nat.add_lt_add_left (by rwa [length_code] at hi) _⟩
  entrypoint_lt := h.entrypoint_lt

theorem hardcodedEntrypoint_lt {mem : Memory} {u : Nat} {isBackup : Bool} :
    hardcodedEntrypoint g mem u isBackup < addressSpace abi := by
  unfold hardcodedEntrypoint
  split
  · exact readAddr_lt _ _ _
  · exact Nat.pow_pos (by decide)

/-- The pool stands at a multiple of the pointer size. -/
theorem PoolInv.aligned {p : Pool} {ts : List Trampoline} (h : PoolInv abi mmap p ts)
    (haligned : PageAligned mmap) : pointerSize abi ∣ p.currentTrampolineOff := by
  rcases h.intact with hv | ⟨k, -, b, hb, -, -, hle, -, hdvd⟩
  · rw [hv.1]
    exact Nat.dvd_zero _
  · have hblock : pointerSize abi ∣ b := pointerSize_dvd_spaceSize.trans (haligned k b hb)
    rw [← Nat.sub_add_cancel hle]
    exact Nat.dvd_add hdvd hblock

/-- No byte of a trampoline is one that hooking writes to in a method. -/
theorem PoolInv.not_rewritten {p : Pool} {ts : List Trampoline} {t : Trampoline} {m a : Nat}
    (h : PoolInv abi mmap p ts) (hset : SetUp g) (hp : Placement g mmap M) (ht : t ∈ ts)
    (hm : m ∈ M) (ha : (t.span abi).Contains a) : ¬ g.Rewritten m a := by
  intro hrewritten
  rcases h.mapped t ht with ⟨k, -, b, hb, -, hwithin, -⟩
  exact (hp.block_method k b hb m hm).not_contains (hwithin.contains ha)
    (hrewritten.contains hset.fields hset.interpreter)

/-- A successful `replaceMethod` adds a trampoline with its code and leaves the
code of the others alone. -/
theorem PoolInv.replaceMethod_codeAt {t u : Nat} {isBackup : Bool} (hset : SetUp g)
    (hp : Placement g mmap M) (haligned : PageAligned mmap) (h : PoolInv abi mmap w.pool w.made)
    (hcode : ∀ T ∈ w.made, CodeAt g w.mem T) (ht : t ∈ M)
    (hr : Yahfa.replaceMethod g mmap w t u isBackup = some (0, w')) :
    PoolInv abi mmap w'.pool w'.made ∧ ∀ T ∈ w'.made, CodeAt g w'.mem T := by
  rcases h.replaceMethod hp hr with ⟨S, -, -, hred, hpool⟩
  rw [← hred.made] at hpool
  refine ⟨hpool, ?_⟩
  rcases replaceMethod_cases g mmap w t u isBackup with
    ⟨-, T, -, rfl, he, hmade, hstores, heq⟩ | ⟨-, -, -, heq⟩ | ⟨-, -, heq⟩
  · obtain rfl : _ = w' := by simpa using heq.symm.trans hr
    -- the writes to the method touch no trampoline
    have hkeeps : ∀ T' ∈ T :: w.made, ∀ mem a, (T'.span abi).Contains a →
        redirect g mem t T.toMethod T.addr a = mem a := by
      intro T' hT' mem a ha
      exact redirect_apply_of_not_rewritten hset.interpreter
        (hpool.not_rewritten hset hp hT' ht ha) _ _
    intro T' hT'
    rcases List.mem_cons.mp hT' with rfl | hold
    · -- the new one
      rcases genTrampoline_code w.mem hset.template haligned (h.aligned haligned) hmade with
        ⟨-, hbase, -, hlaid⟩
      have hnew : CodeAt g (applyStores w.mem (genTrampoline abi g.trampoline mmap w.pool
          T'.toMethod (hardcodedEntrypoint g w.mem T'.toMethod isBackup)).stores) T' :=
        ⟨hbase, by rw [he]; exact hlaid, he ▸ hardcodedEntrypoint_lt⟩
      exact hnew.congr (hkeeps T' hT' _)
    · -- an older one: the new one has been laid down elsewhere
      have happ := (List.pairwise_cons.mp hpool.apart).1 T' hold
      refine (hcode T' hold).congr fun a ha => (hkeeps T' hT' _ a ha).trans ?_
      refine applyStores_of_disjoint fun st hst hcontains => ?_
      exact happ.symm.not_contains ha ((hstores st hst).contains hcontains)
  · simp [heq] at hr
  · simp [heq] at hr

/-- The world simulates the entry points `E`, and the code of its trampolines is
in memory. -/
structure Loaded (g : Statics abi) (mmap : Mmap) (M : Set Nat) (mem₀ : Memory) (w : World)
    (E : Nat → Entry Nat) : Prop extends Sim g mmap M mem₀ w E where
  code : ∀ T ∈ w.made, CodeAt g w.mem T

theorem loaded_initial : Loaded g mmap M mem₀ (.initial mem₀) (run []) :=
  { sim_initial with code := by simp [World.initial] }

/-- A successful call keeps the code in memory. -/
theorem Loaded.exec {E : Nat → Entry Nat} (hset : SetUp g) (hlay : Layout g mmap M mem₀)
    (haligned : PageAligned mmap) (h : Loaded g mmap M mem₀ w E) {c : HookCall} (hc : c.Of M)
    (hr : c.exec g mmap w = some (0, w')) : Loaded g mmap M mem₀ w' (install E c.request) := by
  have hsim := h.toSim.exec hlay hset.fields.entryApart hc hr
  rcases hc with ⟨ht, -, hb⟩
  have hwrites : ∀ m, c.Rewrites m → m ∈ M := by
    rintro m (rfl | ⟨hne, rfl⟩)
    · exact ht
    · exact hb hne
  have hprepared : ∀ T ∈ w.made, CodeAt g (c.prepare g w).mem T := by
    intro T hT
    refine (h.code T hT).congr fun a ha => ?_
    exact setBothNonCompilable_apply_of_not_rewritten
      fun m hm => h.pool.not_rewritten hset hlay.toPlacement hT (hwrites m hm) ha
  rcases HookCall.exec_eq_some.mp hr with ⟨resBackup, w₁, resHook, hbacked, hhooked, hres⟩
  obtain ⟨rfl, rfl⟩ : resBackup = 0 ∧ resHook = 0 := by omega
  have hbackup : PoolInv abi mmap w₁.pool w₁.made ∧ ∀ T ∈ w₁.made, CodeAt g w₁.mem T := by
    rw [HookCall.backUp] at hbacked
    split at hbacked
    · next hne =>
      have hpool : PoolInv abi mmap (c.prepare g w).pool (c.prepare g w).made := h.pool
      exact hpool.replaceMethod_codeAt hset hlay.toPlacement haligned hprepared (hb hne) hbacked
    · rcases Prod.mk.inj (Option.some.inj hbacked) with ⟨-, rfl⟩
      exact ⟨h.pool, hprepared⟩
  rcases hbackup.1.replaceMethod_codeAt hset hlay.toPlacement haligned hbackup.2 ht hhooked with
    ⟨-, hcode⟩
  exact { hsim with code := hcode }

theorem Loaded.hookAll {E : Nat → Entry Nat} (hset : SetUp g) (hlay : Layout g mmap M mem₀)
    (haligned : PageAligned mmap) (h : Loaded g mmap M mem₀ w E) {cs : List HookCall}
    (hcs : ∀ c ∈ cs, c.Of M) (hr : Yahfa.hookAll g mmap w cs = some w') :
    Loaded g mmap M mem₀ w' ((cs.map HookCall.request).foldl install E) := by
  induction cs generalizing w E with
  | nil =>
      obtain rfl : w = w' := by simpa [Yahfa.hookAll] using hr
      exact h
  | cons c cs ih =>
      rcases hookAll_cons.mp hr with ⟨w₁, hcall, hrest⟩
      exact ih (h.exec hset hlay haligned (hcs c List.mem_cons_self) hcall)
        (fun d hd => hcs d (List.mem_cons_of_mem c hd)) hrest

/-! ## The processor in the world -/

section Processor

/-- A push goes below the stack pointer, wherever that is. -/
theorem pushed_congr {s s' : (isa abi).State} (h : (isa abi).stack s' = (isa abi).stack s) (x : Nat) :
    (isa abi).Pushed s' x ↔ (isa abi).Pushed s x := by
  cases abi with
  | i386 =>
      have hsp : s'.reg X86.sp = s.reg X86.sp := BitVec.eq_of_toNat_eq h
      change X86.State.Pushed s' x ↔ X86.State.Pushed s x
      unfold X86.State.Pushed
      rw [hsp]
  | x86_64 =>
      have hsp : s'.reg X86.sp = s.reg X86.sp := BitVec.eq_of_toNat_eq h
      change X86.State.Pushed s' x ↔ X86.State.Pushed s x
      unfold X86.State.Pushed
      rw [hsp]
  | arm =>
      have hsp : s'.reg A32.sp = s.reg A32.sp := BitVec.eq_of_toNat_eq h
      change A32.State.Pushed s' x ↔ A32.State.Pushed s x
      unfold A32.State.Pushed
      rw [hsp]
  | aarch64 => exact Iff.rfl

theorem preserved_refl (s : (isa abi).State) : (isa abi).Preserved s s := by
  cases abi with
  | aarch64 => exact ⟨fun _ _ _ => rfl, rfl⟩
  | _ => exact ⟨fun _ _ => rfl, rfl⟩

theorem preserved_trans {s s' s'' : (isa abi).State} (h : (isa abi).Preserved s s')
    (h' : (isa abi).Preserved s' s'') : (isa abi).Preserved s s'' := by
  cases abi with
  | aarch64 => exact ⟨fun r hr hr' => (h'.1 r hr hr').trans (h.1 r hr hr'), h'.2.trans h.2⟩
  | _ => exact ⟨fun r hr => (h'.1 r hr).trans (h.1 r hr), h'.2.trans h.2⟩

theorem Arrives.trans {s s' s'' : (isa abi).State} {dest dest' arg arg' : Nat}
    (h : Arrives (isa abi) s s' dest arg) (h' : Arrives (isa abi) s' s'' dest' arg') :
    Arrives (isa abi) s s'' dest' arg' where
  steps := h.steps.trans h'.steps
  target := h'.target
  argument := h'.argument
  stack := h'.stack.trans h.stack
  preserved := preserved_trans h.preserved h'.preserved
  mem x hx := (h'.mem x fun hx' => hx ((pushed_congr h.stack x).mp hx')).trans (h.mem x hx)

/-- The bytes that control passes over: those of trampolines and methods. -/
def Watched (g : Statics abi) (M : Set Nat) (w : World) (x : Nat) : Prop :=
  (∃ t ∈ w.made, (t.span abi).Contains x) ∨ ∃ m ∈ M, (g.methodSpan m).Contains x

/-- The processor runs in the world: it sees trampolines and methods as they are
there, and its stack is elsewhere. -/
structure RunsIn (g : Statics abi) (M : Set Nat) (w : World) (s : (isa abi).State) : Prop where
  sees : ∀ x, Watched g M w x → (isa abi).mem s x = w.mem x
  stack : ∀ x, Watched g M w x → ¬ (isa abi).Pushed s x

/-- The processor has jumped to where control is. -/
structure ControlAt (s : (isa abi).State) (c : Control) : Prop where
  target : (isa abi).target s = c.pc
  argument : (isa abi).argument s = c.arg

variable {s s' : (isa abi).State} {c c' : Control}

theorem RunsIn.arrives {dest arg : Nat} (h : RunsIn g M w s)
    (harrives : Arrives (isa abi) s s' dest arg) : RunsIn g M w s' where
  sees x hx := (harrives.mem x (h.stack x hx)).trans (h.sees x hx)
  stack x hx hpushed := h.stack x hx ((pushed_congr harrives.stack x).mp hpushed)

/-- One transfer of control is a run of the trampoline's code. -/
theorem RunsIn.transfer {E : Nat → Entry Nat} (hset : SetUp g)
    (hspace : ∀ m ∈ M, m < addressSpace abi) (hloaded : Loaded g mmap M mem₀ w E)
    (h : RunsIn g M w s)
    (hat : (isa abi).target s = c.pc) (hstep : Transfer g w c c') :
    ∃ s', Arrives (isa abi) s s' c'.pc c'.arg := by
  -- what a trampoline does, whichever kind it is
  have hexec : ∀ t ∈ w.made, (isa abi).target s = t.addr → ∃ s', Arrives (isa abi) s s'
      (if t.entrypoint = NULL then readAddr abi ((isa abi).mem s) (t.toMethod + g.setup.toNat)
        else t.entrypoint) t.toMethod := by
    intro t ht htarget
    have hinside : ∀ i < trampolineSize abi t.entrypoint, Watched g M w (t.base + i) := fun i hi =>
      Or.inl ⟨t, ht, Nat.le_add_right _ _, Nat.add_lt_add_left hi _⟩
    have hcode := hloaded.code t ht
    refine code_exec (hcode.code.congr fun i hi => h.sees _ (hinside i (length_code abi _ _ _ ▸ hi)))
      (fun i hi => h.stack _ (hinside i hi)) hcode.aligned htarget ?_
      (hspace _ (hloaded.methods t ht)) hcode.entrypoint_lt
    rw [hset.toNat_setup]
    exact hset.offset_lt
  cases hstep with
  | @hook t ht hkind a =>
      rcases hexec t ht hat with ⟨s', harrives⟩
      rw [if_pos hkind, hset.toNat_setup] at harrives
      -- the entry point is read from the method, which the processor sees as it is
      have hentry : readAddr abi ((isa abi).mem s)
          (t.toMethod + g.offsetEntryPointFromQuickCompiledCode) = g.entryPoint w.mem t.toMethod :=
        entryPoint_congr fun x hx => h.sees x (Or.inr ⟨_, hloaded.methods t ht, hx⟩)
      exact ⟨s', hentry ▸ harrives⟩
  | @backup t ht hkind a =>
      rcases hexec t ht hat with ⟨s', harrives⟩
      rw [if_neg hkind] at harrives
      exact ⟨s', harrives⟩

/-- A processor follows the transfers of control, however many there are. -/
theorem RunsIn.transfers {E : Nat → Entry Nat} (hset : SetUp g)
    (hspace : ∀ m ∈ M, m < addressSpace abi) (hloaded : Loaded g mmap M mem₀ w E)
    (h : RunsIn g M w s)
    (hat : ControlAt s c) (hpath : Relation.ReflTransGen (Transfer g w) c c') :
    ∃ s', Arrives (isa abi) s s' c'.pc c'.arg := by
  induction hpath with
  | refl =>
      exact ⟨s, .refl, hat.target, hat.argument, rfl, preserved_refl s, fun _ _ => rfl⟩
  | tail _ hstep ih =>
      rcases ih with ⟨s₁, h₁⟩
      rcases (h.arrives h₁).transfer hset hspace hloaded h₁.target hstep with ⟨s', h'⟩
      exact ⟨s', h₁.trans h'⟩

end Processor

/-! ## Whole runs -/

/-- A processor that has invoked `m` arrives in the original code of `l`, with
`l` as argument. -/
def ExecutesCode (g : Statics abi) (M : Set Nat) (mem₀ : Memory) (w : World) (m l : Nat) : Prop :=
  ∀ s : (isa abi).State, RunsIn g M w s → ControlAt s (invoke g w m) →
    ∃ s', Arrives (isa abi) s s' (g.entryPoint mem₀ l) l

theorem Loaded.executesCode {E : Nat → Entry Nat} {m l : Nat} (hset : SetUp g)
    (hspace : ∀ m ∈ M, m < addressSpace abi) (h : Loaded g mmap M mem₀ w E)
    (hends : EndsInCode g mmap mem₀ w m l) : ExecutesCode g M mem₀ w m l := by
  intro s hs hat
  exact hs.transfers hset hspace h hat hends.1

/-- After calls in which every allocation succeeded, a processor that invokes a
method that is no backup runs through the code of the trampolines in memory and
arrives in the original code of the last method on its chain of latest hooks,
with that method in the argument register and nothing else changed. One that
invokes a backup arrives in the original code of its target, or where the hook
that the target had at the time ends. -/
theorem hookAll_exec {sdkVersion : Int} (hsdk : sdkVersion ∈ handledLevels)
    (hlay : Layout (initialized abi sdkVersion) mmap M mem₀) (haligned : PageAligned mmap)
    (hspace : ∀ m ∈ M, m < addressSpace abi) {cs : List HookCall} (hcs : ∀ c ∈ cs, c.Of M)
    (hr : hookAll (initialized abi sdkVersion) mmap (.initial mem₀) cs = some w)
    (hproper : ProperBackups (cs.map HookCall.request))
    (hacyclic : Chain.Acyclic (latestHook (cs.map HookCall.request))) :
    (∀ m ∈ M, m ∉ backups (cs.map HookCall.request) →
      ∃ l, Chain.Ends (latestHook (cs.map HookCall.request)) m l ∧
        ExecutesCode (initialized abi sdkVersion) M mem₀ w m l) ∧
    (∀ pre c post, cs = pre ++ c :: post → c.backupMethod ≠ NULL →
      match latestHook (pre.map HookCall.request) c.targetMethod with
      | none => ExecutesCode (initialized abi sdkVersion) M mem₀ w c.backupMethod c.targetMethod
      | some n => ∃ l, Chain.Ends (latestHook (cs.map HookCall.request)) n l ∧
          ExecutesCode (initialized abi sdkVersion) M mem₀ w c.backupMethod l) := by
  have hset : SetUp (initialized abi sdkVersion) := setUp_initialized hsdk
  have hloaded := loaded_initial.hookAll hset hlay haligned hcs hr
  -- where the abstract entry point of a method lands, there its invocation arrives
  have harrives : ∀ {m l : Nat}, m ∈ M →
      Lands (run (cs.map HookCall.request)) (run (cs.map HookCall.request) m) m l l →
      ExecutesCode (initialized abi sdkVersion) M mem₀ w m l := by
    intro m l hm hl
    exact hloaded.executesCode hset hspace (hloaded.toSim.endsInCode hlay hm hl)
  constructor
  · intro m hm hnot
    rcases exists_ends_latestHook hacyclic m with ⟨l, hl⟩
    exact ⟨l, hl, harrives hm (lands_of_ends hproper hnot hl)⟩
  · intro pre c post heq hb
    have hbM : c.backupMethod ∈ M := (hcs c (by simp [heq])).2.2 hb
    have hsplit : cs.map HookCall.request =
        pre.map HookCall.request ++ c.request :: post.map HookCall.request := by simp [heq]
    have hbackup : c.request.backup = some c.backupMethod := by simp [HookCall.request, hb]
    cases hn : latestHook (pre.map HookCall.request) c.targetMethod with
    | none =>
        -- the target had its original entry point
        exact harrives hbM (lands_backup_first hproper hsplit hbackup hn)
    | some n =>
        -- the target had been hooked before
        rcases exists_ends_latestHook hacyclic n with ⟨l, hl⟩
        exact ⟨l, hl, harrives hbM (lands_backup_again hproper hsplit hbackup hn hl)⟩

/-- A processor with its stack far above the pool invokes the second backup: it runs through
the trampolines of the backup, of the target and of the first hook. -/
theorem hookAll_exec_again :
    let g := initialized .arm 29
    ∃ w, hookAll g (mmapRow 0x10000 6) (.initial fun _ => 1) hookedAgain = some w ∧
      ∃ s s' : (isa .arm).State, ControlAt s (invoke g w 0x5000) ∧
        Arrives (isa .arm) s s' (g.entryPoint (fun _ => 1) 0x4000) 0x4000 := by
  intro g
  rcases exists_hookedAgain with ⟨w, hw⟩
  have hlay := layout_ones (n := 6) (by decide)
  have hspace : ∀ m ∈ pages, m < addressSpace .arm := fun m hm => hm.2.2.trans (by decide)
  have haligned : PageAligned (mmapRow 0x10000 6) := mmapRow_pageAligned (by decide)
  have hexec := hookAll_exec (by decide) hlay haligned hspace hookedAgain_of hw
    (by constructor <;> decide) hookedAgain_acyclic
  rcases hexec.2 [⟨0x1000, 0x2000, 0x3000⟩] ⟨0x1000, 0x4000, 0x5000⟩ _ rfl (by decide) with
    ⟨l, hl, hcode⟩
  obtain rfl := (hookedAgain_ends (.inr rfl)).unique hl
  have hset : SetUp g := setUp_initialized (by decide)
  have hloaded := loaded_initial.hookAll hset hlay haligned hookedAgain_of hw
  -- everything watched lies below 0x20000
  have hlow : ∀ x, Watched g pages w x → x < 0x20000 := by
    rintro x (⟨t, ht, hx⟩ | ⟨m, hm, hx⟩)
    · rcases hloaded.pool.mapped t ht with ⟨k, -, b, hb, -, hwithin, -⟩
      rcases mmapRow_eq_some hb with ⟨hk, rfl⟩
      have hin := (hwithin.contains hx).2
      simp only [blockSpan, trampolineSpaceSize] at hin
      omega
    · have hend : x < m + 28 := hx.2
      exact hend.trans (by have := hm.2.2; omega)
  let s : A32.State :=
    { reg := fun r => if r = A32.sp then 0x40000 else if r = 0 then 0x5000 else 0
      pc := BitVec.ofNat 32 (g.entryPoint w.mem 0x5000)
      thumb := false
      apsr := 0
      mem := fun a => w.mem a.toNat }
  have hat : @ControlAt .arm s (invoke g w 0x5000) := by
    refine ⟨?_, rfl⟩
    change (BitVec.ofNat 32 (g.entryPoint w.mem 0x5000) ||| 0#32).toNat = g.entryPoint w.mem 0x5000
    rw [BitVec.or_zero]
    exact Nat.mod_eq_of_lt (readAddr_lt .arm _ _)
  have hruns : @RunsIn .arm g pages w s := by
    refine ⟨fun x hx => ?_, fun x hx hpushed => ?_⟩
    · change w.mem (BitVec.ofNat 32 x).toNat = w.mem x
      rw [BitVec.toNat_ofNat, Nat.mod_eq_of_lt ((hlow x hx).trans (by decide))]
    · -- the stack ends at 0x40000
      have hslot : ∀ i < 4, 0x20000 ≤ (0x40000#32 - 4 + BitVec.ofNat 32 i).toNat := by decide
      rcases hpushed with ⟨i, hi, heq⟩
      have hnat : (BitVec.ofNat 32 x).toNat = (0x40000#32 - 4 + BitVec.ofNat 32 i).toNat :=
        congrArg BitVec.toNat heq
      rw [BitVec.toNat_ofNat, Nat.mod_eq_of_lt ((hlow x hx).trans (by decide))] at hnat
      exact absurd (hlow x hx) (not_lt.mpr (hnat ▸ hslot i hi))
  rcases hcode s hruns hat with ⟨s', harrives⟩
  exact ⟨w, hw, s, s', hat, harrives⟩

end Yahfa
