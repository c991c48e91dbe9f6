import Yahfa.Trampoline
import Mathlib.Data.List.Induction

/-!
# Safety of the trampoline pool

Runs of `genTrampoline` calls, and what the two static pointers can be between
calls: both null, inside a block `mmap` has returned, or torn apart by a failed
allocation (`Torn`): `currentTrampolineOff` null, `trampolineSpaceEnd` still
the end of the last block. From the first two every call stays inside a block;
from the third the next call writes through the null pointer.

The invariant of a run without failures is `PoolInv`: the installed trampolines
are pairwise apart, and apart from the free rest of the current block.
-/

namespace Yahfa

open Bytes

/-! ## Runs -/

/-- The arguments of a `genTrampoline` call. -/
structure GenCall where
  toMethod : Nat
  entrypoint : Nat
deriving DecidableEq, Repr

/-- The pool, the memory and the trampolines made so far, newest first. -/
structure GenState where
  pool : Pool
  mem : Memory
  made : List Trampoline

/-- The pool as the library is loaded, over any memory. -/
def GenState.initial (mem : Memory) : GenState := ⟨Pool.initial, mem, []⟩

/-- One call with its stores carried out. -/
def genStep (abi : Abi) (template : Template abi) (mmap : Mmap) (s : GenState) (c : GenCall) :
    GenState :=
  let r := genTrampoline abi template mmap s.pool c.toMethod c.entrypoint
  ⟨r.pool, applyStores s.mem r.stores, r.made.toList ++ s.made⟩

/-- A sequence of calls. -/
def genRun (abi : Abi) (template : Template abi) (mmap : Mmap) (s : GenState)
    (cs : List GenCall) : GenState :=
  cs.foldl (genStep abi template mmap) s

/-! ## The states of the pool -/

/-- No block is in use. -/
def Virgin (p : Pool) : Prop := p.currentTrampolineOff = NULL ∧ p.trampolineSpaceEnd = NULL

/-- The static pointers lie in a block `mmap` has returned. -/
def InBlock (abi : Abi) (mmap : Mmap) (p : Pool) : Prop :=
  ∃ k < p.mmaps, ∃ b, mmap k = some b ∧ b ≠ NULL ∧
    p.trampolineSpaceEnd = b + trampolineSpaceSize ∧
    b ≤ p.currentTrampolineOff ∧ p.currentTrampolineOff ≤ p.trampolineSpaceEnd ∧
    pointerSize abi ∣ p.currentTrampolineOff - b

/-- An allocation has failed after an earlier one succeeded. -/
def Torn (p : Pool) : Prop := p.currentTrampolineOff = NULL ∧ p.trampolineSpaceEnd ≠ NULL

instance (p : Pool) : Decidable (Torn p) := inferInstanceAs (Decidable (_ ∧ _))

/-- `trampolineSpaceEnd` is null or the end of a block. -/
def EndOk (mmap : Mmap) (p : Pool) : Prop :=
  p.trampolineSpaceEnd = NULL ∨
    ∃ k < p.mmaps, ∃ b, mmap k = some b ∧ b ≠ NULL ∧
      p.trampolineSpaceEnd = b + trampolineSpaceSize

/-- What the pool can be between calls. -/
def PoolOk (abi : Abi) (mmap : Mmap) (p : Pool) : Prop :=
  (Virgin p ∨ InBlock abi mmap p) ∨ (Torn p ∧ EndOk mmap p)

/-- `mmap` never returns a null block. -/
def NonNullBlocks (mmap : Mmap) : Prop := ∀ k b, mmap k = some b → b ≠ NULL

section Step

variable {abi : Abi} {template : Template abi} {mmap : Mmap} {p : Pool}
  {toMethod entrypoint : Nat}

theorem InBlock.endOk (h : InBlock abi mmap p) : EndOk mmap p := by
  rcases h with ⟨k, hk, b, hb, hne, hend, -⟩
  exact Or.inr ⟨k, hk, b, hb, hne, hend⟩

theorem InBlock.not_torn (h : InBlock abi mmap p) : ¬ Torn p := by
  rcases h with ⟨k, hk, b, hb, hne, hend, hle, -⟩
  rintro ⟨hoff, -⟩
  rw [hoff] at hle
  exact hne (Nat.le_zero.mp hle)

theorem Virgin.not_torn (h : Virgin p) : ¬ Torn p := fun ht => ht.2 h.2

/-- The end of a block is far enough from null for a trampoline to seem to fit
below it. -/
theorem EndOk.room_of_torn (h : EndOk mmap p) (ht : Torn p) (abi : Abi) (entrypoint : Nat) :
    p.currentTrampolineOff + trampolineSize abi entrypoint ≤ p.trampolineSpaceEnd := by
  have hsize := trampolineSize_le abi entrypoint
  rcases h with h0 | ⟨k, hk, b, hb, hne, hend⟩
  · exact absurd h0 ht.2
  · rw [ht.1, hend, trampolineSpaceSize]
    simp only [NULL]
    omega

/-- A trampoline that fits leaves the offset in the block: both the size of a
block and the rounded size are multiples of the pointer size, so rounding up
cannot pass the end. -/
theorem InBlock.lay (h : InBlock abi mmap p)
    (hroom : p.currentTrampolineOff + trampolineSize abi entrypoint ≤ p.trampolineSpaceEnd) :
    InBlock abi mmap (layTrampoline abi template p toMethod entrypoint).pool := by
  rcases h with ⟨k, hk, b, hb, hne, hend, hle, -, hdvd⟩
  rcases roundUp_trampolineSize abi entrypoint with ⟨hge, hlt, hround⟩
  refine ⟨k, hk, b, hb, hne, hend, ?_, ?_, ?_⟩ <;> simp only [layTrampoline_pool]
  · omega
  · rcases pointerSize_cases abi with hp | hp <;>
      rw [hp] at hdvd hround hlt <;> simp only [trampolineSpaceSize] at hend <;> omega
  · rw [Nat.sub_add_comm hle]
    exact Nat.dvd_add hdvd hround

/-- A fresh block, before anything is laid down in it. -/
theorem inBlock_fresh {n b : Nat} (hb : mmap n = some b) (hne : b ≠ NULL) :
    InBlock abi mmap ⟨b, b + trampolineSpaceSize, n + 1⟩ :=
  ⟨n, Nat.lt_succ_self n, b, hb, hne, rfl, le_refl b, Nat.le_add_right _ _, by simp⟩

/-- A call never takes `trampolineSpaceEnd` away from the end of a block. -/
theorem EndOk.step (h : EndOk mmap p) :
    EndOk mmap (genTrampoline abi template mmap p toMethod entrypoint).pool := by
  rcases genTrampoline_cases template mmap p toMethod entrypoint with
    ⟨-, hr⟩ | ⟨-, -, hr⟩ | ⟨b, -, hb, hne, hr⟩
  · rw [hr]
    exact h
  · rw [hr]
    rcases h with h0 | ⟨k, hk, b, hb, hne, hend⟩
    · exact Or.inl h0
    · exact Or.inr ⟨k, Nat.lt_succ_of_lt hk, b, hb, hne, hend⟩
  · rw [hr]
    exact Or.inr ⟨p.mmaps, Nat.lt_succ_self _, b, hb, hne, rfl⟩

/-- From an intact pool a call leaves an intact pool, or fails and tears it. -/
theorem pool_step (h : Virgin p ∨ InBlock abi mmap p) :
    let p' := (genTrampoline abi template mmap p toMethod entrypoint).pool
    (Virgin p' ∨ InBlock abi mmap p') ∨ Torn p' := by
  obtain ⟨hroom, hr⟩ | ⟨-, -, hr⟩ | ⟨b, -, hb, hne, hr⟩ :=
    genTrampoline_cases template mmap p toMethod entrypoint <;> rw [hr]
  · rcases h with hv | hin
    · -- nothing fits below a null end
      have hpos := trampolineSize_pos abi entrypoint
      have hend : p.trampolineSpaceEnd = 0 := hv.2
      omega
    · exact Or.inl (Or.inr (hin.lay hroom))
  · by_cases hend : p.trampolineSpaceEnd = NULL
    · exact Or.inl (Or.inl ⟨rfl, hend⟩)
    · exact Or.inr ⟨rfl, hend⟩
  · exact Or.inl (Or.inr ((inBlock_fresh hb hne).lay (by
      have := trampolineSize_le abi entrypoint
      simp only [trampolineSpaceSize]
      omega)))

theorem poolOk_initial : PoolOk abi mmap .initial := Or.inl (Or.inl ⟨rfl, rfl⟩)

theorem PoolOk.endOk (h : PoolOk abi mmap p) : EndOk mmap p := by
  rcases h with (hv | hin) | ⟨-, hend⟩
  · exact Or.inl hv.2
  · exact hin.endOk
  · exact hend

/-- A failed allocation leaves the end of the last block, if there is one. -/
theorem PoolOk.fail (h : PoolOk abi mmap p) :
    PoolOk abi mmap ⟨NULL, p.trampolineSpaceEnd, p.mmaps + 1⟩ := by
  by_cases hend : p.trampolineSpaceEnd = NULL
  · exact Or.inl (Or.inl ⟨rfl, hend⟩)
  · refine Or.inr ⟨⟨rfl, hend⟩, ?_⟩
    rcases h.endOk.resolve_left hend with ⟨k, hk, b, hb, hne, heq⟩
    exact Or.inr ⟨k, Nat.lt_succ_of_lt hk, b, hb, hne, heq⟩

/-! ## One call -/

/-- The call returns null and writes nothing, or everything it writes lies in
one block `mmap` has returned by the end of the call. -/
def CallSafe (mmap : Mmap) (r : GenResult) : Prop :=
  (r.ret = NULL ∧ r.stores = []) ∨
    ∃ k < r.pool.mmaps, ∃ b, mmap k = some b ∧ ∀ s ∈ r.stores, s.span.Within (blockSpan b)

/-- Laying a trampoline down where it fits is safe. -/
theorem InBlock.lay_callSafe (h : InBlock abi mmap p)
    (hroom : p.currentTrampolineOff + trampolineSize abi entrypoint ≤ p.trampolineSpaceEnd) :
    CallSafe mmap (layTrampoline abi template p toMethod entrypoint) := by
  rcases h with ⟨k, hk, b, hb, hne, hend, hle, -⟩
  refine Or.inr ⟨k, hk, b, hb, fun s hs => (layTrampoline_stores_within hs).trans ?_⟩
  exact ⟨hle, by simp only [blockSpan]; omega⟩

theorem callSafe_of_intact (h : Virgin p ∨ InBlock abi mmap p) :
    CallSafe mmap (genTrampoline abi template mmap p toMethod entrypoint) := by
  obtain ⟨hroom, hr⟩ | ⟨-, -, hr⟩ | ⟨b, -, hb, hne, hr⟩ :=
    genTrampoline_cases template mmap p toMethod entrypoint <;> rw [hr]
  · rcases h with hv | hin
    · have hpos := trampolineSize_pos abi entrypoint
      have hend : p.trampolineSpaceEnd = 0 := hv.2
      omega
    · exact hin.lay_callSafe hroom
  · exact Or.inl ⟨rfl, rfl⟩
  · refine (inBlock_fresh hb hne).lay_callSafe ?_
    have := trampolineSize_le abi entrypoint
    simp only [trampolineSpaceSize]
    omega

/-- On a torn pool the call does not allocate: it writes from the null pointer
on, which no block contains. -/
theorem not_callSafe_of_torn (hmmap : NonNullBlocks mmap) (hend : EndOk mmap p) (ht : Torn p) :
    ¬ CallSafe mmap (genTrampoline abi template mmap p toMethod entrypoint) := by
  have hroom := hend.room_of_torn ht abi entrypoint
  rcases genTrampoline_cases template mmap p toMethod entrypoint with
    ⟨-, hr⟩ | ⟨hno, -⟩ | ⟨b, hno, -⟩
  · rcases layTrampoline_stores_head template p toMethod entrypoint with ⟨s, rest, hstores, hspan⟩
    rw [hr]
    rintro (⟨-, hnil⟩ | ⟨k, -, b, hb, hall⟩)
    · simp [hstores] at hnil
    · have hwithin := hall s (by simp [hstores])
      rw [hspan, ht.1] at hwithin
      exact hmmap k b hb (Nat.le_zero.mp hwithin.1)
  · omega
  · omega

end Step

/-! ## Blocks in a row -/

/-- Different `mmap` calls return blocks that lie apart. -/
def ApartBlocks (mmap : Mmap) : Prop :=
  ∀ j k b c, j ≠ k → mmap j = some b → mmap k = some c → (blockSpan b).Apart (blockSpan c)

/-- A block starts at a page boundary. -/
def PageAligned (mmap : Mmap) : Prop := ∀ k b, mmap k = some b → trampolineSpaceSize ∣ b

/-- `mmap` returns `n` adjacent blocks from `b` on and fails after that. -/
def mmapRow (b n : Nat) : Mmap := fun k =>
  if k < n then some (b + k * trampolineSpaceSize) else none

theorem mmapRow_eq_some {b n k c : Nat} (h : mmapRow b n k = some c) :
    k < n ∧ c = b + k * trampolineSpaceSize := by
  rw [mmapRow] at h
  split at h
  · exact ⟨‹_›, (Option.some.inj h).symm⟩
  · cases h

theorem mmapRow_nonNull {b n : Nat} (hb : b ≠ NULL) : NonNullBlocks (mmapRow b n) := by
  intro k c hc
  rcases mmapRow_eq_some hc with ⟨-, rfl⟩
  exact fun h => hb (Nat.eq_zero_of_add_eq_zero_right h)

theorem mmapRow_apart {b n : Nat} : ApartBlocks (mmapRow b n) := by
  intro j k c d hjk hc hd
  rcases mmapRow_eq_some hc with ⟨-, rfl⟩
  rcases mmapRow_eq_some hd with ⟨-, rfl⟩
  simp only [Span.Apart, blockSpan, trampolineSpaceSize]
  omega

theorem mmapRow_pageAligned {b n : Nat} (hb : trampolineSpaceSize ∣ b) :
    PageAligned (mmapRow b n) := by
  intro k c hc
  rcases mmapRow_eq_some hc with ⟨-, rfl⟩
  exact Nat.dvd_add hb (Nat.dvd_mul_left _ _)

/-- The first `mmap` fails, the others are as before. -/
def failsFirst (mmap : Mmap) : Mmap := fun k => if k = 0 then none else mmap k

theorem failsFirst_eq_some {mmap : Mmap} {k b : Nat} (h : failsFirst mmap k = some b) :
    mmap k = some b := by
  rw [failsFirst] at h
  split at h
  · cases h
  · exact h

/-! ## Whole runs: where the pool writes -/

section Run

variable {abi : Abi} {template : Template abi} {mmap : Mmap}

@[simp] theorem genRun_nil (s : GenState) : genRun abi template mmap s [] = s := rfl

theorem genRun_append (s : GenState) (cs ds : List GenCall) :
    genRun abi template mmap s (cs ++ ds) =
      genRun abi template mmap (genRun abi template mmap s cs) ds :=
  List.foldl_append

theorem genRun_snoc (s : GenState) (cs : List GenCall) (c : GenCall) :
    genRun abi template mmap s (cs ++ [c]) =
      genStep abi template mmap (genRun abi template mmap s cs) c := by
  rw [genRun_append]
  rfl

theorem genRun_endOk (mem : Memory) (cs : List GenCall) :
    EndOk mmap (genRun abi template mmap (.initial mem) cs).pool := by
  induction cs using List.reverseRecOn with
  | nil => exact Or.inl rfl
  | append_singleton cs c ih =>
      rw [genRun_snoc]
      exact ih.step

/-- As long as no call starts on a torn pool, the pool is intact or has just
been torn. -/
theorem genRun_intact_or_torn (template : Template abi) (mmap : Mmap) (mem : Memory) (cs : List GenCall)
    (h : ∀ pre c post, cs = pre ++ c :: post →
      ¬ Torn (genRun abi template mmap (.initial mem) pre).pool) :
    let p := (genRun abi template mmap (.initial mem) cs).pool
    (Virgin p ∨ InBlock abi mmap p) ∨ Torn p := by
  induction cs using List.reverseRecOn with
  | nil => exact Or.inl (Or.inl ⟨rfl, rfl⟩)
  | append_singleton cs c ih =>
      have hcs := ih fun pre d post hd => h pre d (post ++ [c]) (by simp [hd])
      have hintact := hcs.resolve_right (h cs c [] rfl)
      rw [genRun_snoc]
      exact pool_step hintact

/-- Every call of a run stays inside the blocks exactly when no call is made on
a torn pool, that is, after a failed allocation that came after a successful
one. -/
theorem genRun_callSafe_iff (hmmap : NonNullBlocks mmap) (mem : Memory) (cs : List GenCall) :
    (∀ pre c post, cs = pre ++ c :: post →
      CallSafe mmap (genTrampoline abi template mmap
        (genRun abi template mmap (.initial mem) pre).pool c.toMethod c.entrypoint)) ↔
    (∀ pre c post, cs = pre ++ c :: post →
      ¬ Torn (genRun abi template mmap (.initial mem) pre).pool) := by
  constructor
  · intro hsafe pre c post hcs htorn
    exact not_callSafe_of_torn hmmap (genRun_endOk mem pre) htorn (hsafe pre c post hcs)
  · intro hall pre c post hcs
    have hpre := genRun_intact_or_torn template mmap mem pre
      fun pre' d post' hd => hall pre' d (post' ++ c :: post) (by simp [hcs, hd])
    exact callSafe_of_intact (hpre.resolve_right (hall pre c post hcs))

/-- The first call gets no block; the next 128 fill one, and the last gets another. -/
theorem genRun_callSafe_late :
    let mmap := failsFirst (mmapRow 0x10000 3)
    let run := genRun .aarch64 (trampoline .aarch64) mmap (.initial fun _ => 0)
    let cs := GenCall.mk 0x1000 NULL :: List.replicate 129 ⟨0x1000, 0x2000⟩
    (run cs).pool.mmaps = 3 ∧
    ∀ pre c post, cs = pre ++ c :: post →
      CallSafe mmap (genTrampoline .aarch64 (trampoline .aarch64) mmap (run pre).pool
        c.toMethod c.entrypoint) := by
  intro mmap run cs
  have hnonNull : NonNullBlocks mmap := fun k b hb =>
    mmapRow_nonNull (by decide) k b (failsFirst_eq_some hb)
  have hprefixes : ∀ k < cs.length, ¬ Torn (run (cs.take k)).pool := by decide +kernel
  refine ⟨by decide +kernel, (genRun_callSafe_iff hnonNull _ cs).mpr ?_⟩
  intro pre c post h
  have hpre := hprefixes pre.length (by simp [h])
  rwa [h, List.take_left] at hpre

/-- On aarch64 a block holds 128 backup trampolines. The `mmap` for the next one
fails, and the call after that writes at address 0. -/
theorem genRun_writes_outside :
    ¬ ∀ pre c post, List.replicate 130 (GenCall.mk 0x1000 0x2000) = pre ++ c :: post →
      CallSafe (mmapRow 0x10000 1)
        (genTrampoline .aarch64 (trampoline .aarch64) (mmapRow 0x10000 1)
          (genRun .aarch64 (trampoline .aarch64) (mmapRow 0x10000 1) (.initial fun _ => 0) pre).pool
          c.toMethod c.entrypoint) := by
  intro h
  have hlast := h (List.replicate 129 ⟨0x1000, 0x2000⟩) ⟨0x1000, 0x2000⟩ []
    (by rw [← List.replicate_succ'])
  refine not_callSafe_of_torn (mmapRow_nonNull (by decide)) (genRun_endOk _ _) ?_ hlast
  decide +kernel

end Run

/-! ## Whole runs: installed trampolines -/

/-- The free rest of the current block. -/
def Pool.free (p : Pool) : Span :=
  ⟨p.currentTrampolineOff, p.trampolineSpaceEnd - p.currentTrampolineOff⟩

/-- The pool is intact and `ts` are the trampolines laid down in it so far. -/
structure PoolInv (abi : Abi) (mmap : Mmap) (p : Pool) (ts : List Trampoline) : Prop where
  intact : Virgin p ∨ InBlock abi mmap p
  mapped : ∀ t ∈ ts, ∃ k < p.mmaps, ∃ b, mmap k = some b ∧ b ≠ NULL ∧
    (t.span abi).Within (blockSpan b) ∧ pointerSize abi ∣ t.base - b
  free : ∀ t ∈ ts, (t.span abi).Apart p.free
  apart : ts.Pairwise fun t u => (t.span abi).Apart (u.span abi)

section Installed

variable {abi : Abi} {template : Template abi} {mmap : Mmap} {p : Pool} {ts : List Trampoline}
  {toMethod entrypoint : Nat}

theorem poolInv_nil (h : Virgin p ∨ InBlock abi mmap p) : PoolInv abi mmap p [] where
  intact := h
  mapped := by simp
  free := by simp
  apart := List.Pairwise.nil

theorem poolInv_initial : PoolInv abi mmap .initial [] := poolInv_nil (Or.inl ⟨rfl, rfl⟩)

/-- Laying a trampoline down at the start of the free part keeps the invariant,
with the trampoline added. -/
theorem PoolInv.lay (hin : InBlock abi mmap p) (h : PoolInv abi mmap p ts)
    (hroom : p.currentTrampolineOff + trampolineSize abi entrypoint ≤ p.trampolineSpaceEnd) :
    PoolInv abi mmap (layTrampoline abi template p toMethod entrypoint).pool
      (⟨p.currentTrampolineOff, toMethod, entrypoint⟩ :: ts) := by
  rcases roundUp_trampolineSize abi entrypoint with ⟨hge, -, -⟩
  -- the new trampoline is cut off the free rest of the block
  have hfree : (layTrampoline abi template p toMethod entrypoint).pool.free.Within p.free := by
    have hin' : InBlock abi mmap (layTrampoline abi template p toMethod entrypoint).pool :=
      hin.lay hroom
    rcases hin' with ⟨-, -, -, -, -, -, -, hle, -⟩
    simp only [layTrampoline_pool] at hle
    simp only [Span.Within, Pool.free, layTrampoline_pool]
    omega
  have hnew : (Trampoline.span abi ⟨p.currentTrampolineOff, toMethod, entrypoint⟩).Within p.free := by
    simp only [Span.Within, Pool.free, Trampoline.span]
    omega
  refine ⟨Or.inr (hin.lay hroom), ?_, ?_, ?_⟩
  · intro t ht
    rcases List.mem_cons.mp ht with rfl | ht
    · rcases hin with ⟨k, hk, b, hb, hne, hend, hle, hle', hdvd⟩
      refine ⟨k, hk, b, hb, hne, ⟨hle, ?_⟩, hdvd⟩
      simp only [Trampoline.span, blockSpan]
      omega
    · exact h.mapped t ht
  · intro t ht
    rcases List.mem_cons.mp ht with rfl | ht
    · refine Or.inl ?_
      simp only [Trampoline.span, Pool.free, layTrampoline_pool]
      omega
    · exact (h.free t ht).of_within ⟨le_refl _, le_refl _⟩ hfree
  · exact List.pairwise_cons.mpr
      ⟨fun t ht => ((h.free t ht).of_within ⟨le_refl _, le_refl _⟩ hnew).symm, h.apart⟩

/-- Moving on to a fresh block keeps the invariant. -/
theorem PoolInv.fresh (hapart : ApartBlocks mmap) (h : PoolInv abi mmap p ts) {b : Nat}
    (hb : mmap p.mmaps = some b) (hne : b ≠ NULL) :
    PoolInv abi mmap ⟨b, b + trampolineSpaceSize, p.mmaps + 1⟩ ts where
  intact := Or.inr (inBlock_fresh hb hne)
  mapped := by
    intro t ht
    rcases h.mapped t ht with ⟨k, hk, rest⟩
    exact ⟨k, Nat.lt_succ_of_lt hk, rest⟩
  free := by
    intro t ht
    rcases h.mapped t ht with ⟨k, hk, c, hc, -, hwithin, -⟩
    refine (hapart k p.mmaps c b (by omega) hc hb).of_within hwithin ⟨le_refl _, ?_⟩
    simp [Pool.free, blockSpan]
  apart := h.apart

/-- What a successful call leaves: the trampoline `t`, in its own span, on top
of the earlier ones. -/
structure Lays (abi : Abi) (mmap : Mmap) (r : GenResult) (t : Trampoline) (ts : List Trampoline) :
    Prop where
  made : r.made = some t
  ret : r.ret = t.addr
  ret_ne_null : r.ret ≠ NULL
  stores : ∀ s ∈ r.stores, s.span.Within (t.span abi)
  inv : PoolInv abi mmap r.pool (t :: ts)

theorem PoolInv.lays (hin : InBlock abi mmap p) (h : PoolInv abi mmap p ts)
    (hroom : p.currentTrampolineOff + trampolineSize abi entrypoint ≤ p.trampolineSpaceEnd) :
    Lays abi mmap (layTrampoline abi template p toMethod entrypoint)
      ⟨p.currentTrampolineOff, toMethod, entrypoint⟩ ts where
  made := rfl
  ret := rfl
  ret_ne_null := by
    rcases hin with ⟨-, -, b, -, hne, -, hle, -⟩
    simp only [layTrampoline_ret, Trampoline.addr, NULL] at *
    split <;> omega
  stores := fun s hs => layTrampoline_stores_within hs
  inv := h.lay hin hroom

/-- On an intact pool a call either lays a trampoline down or fails, and then
it has written nothing. -/
theorem PoolInv.step (hapart : ApartBlocks mmap) (h : PoolInv abi mmap p ts)
    (template : Template abi) (toMethod entrypoint : Nat) :
    let r := genTrampoline abi template mmap p toMethod entrypoint
    (∃ base, Lays abi mmap r ⟨base, toMethod, entrypoint⟩ ts) ∨
    ((∀ b, mmap p.mmaps = some b → b = NULL) ∧
      r = { ret := NULL, stores := [], made := none,
            pool := ⟨NULL, p.trampolineSpaceEnd, p.mmaps + 1⟩ }) := by
  have hpos := trampolineSize_pos abi entrypoint
  have hsize := trampolineSize_le abi entrypoint
  rcases genTrampoline_cases template mmap p toMethod entrypoint with
    ⟨hroom, hr⟩ | ⟨-, hnull, hr⟩ | ⟨b, -, hb, hne, hr⟩
  · have hin : InBlock abi mmap p := h.intact.resolve_left fun hv => by
      have hend : p.trampolineSpaceEnd = 0 := hv.2
      omega
    exact Or.inl ⟨_, hr ▸ h.lays hin hroom⟩
  · exact Or.inr ⟨hnull, hr⟩
  · refine Or.inl ⟨_, hr ▸ (h.fresh hapart hb hne).lays (inBlock_fresh hb hne) ?_⟩
    simp only [trampolineSpaceSize]
    omega

/-- Later calls count at least as many `mmap` calls. -/
theorem genTrampoline_mmaps_le (template : Template abi) (mmap : Mmap) (p : Pool)
    (toMethod entrypoint : Nat) :
    p.mmaps ≤ (genTrampoline abi template mmap p toMethod entrypoint).pool.mmaps := by
  obtain ⟨-, hr⟩ | ⟨-, -, hr⟩ | ⟨b, -, -, -, hr⟩ :=
    genTrampoline_cases template mmap p toMethod entrypoint <;> rw [hr] <;> simp

/-- A call makes at most one `mmap` call. -/
theorem genTrampoline_mmaps_le_succ :
    (genTrampoline abi template mmap p toMethod entrypoint).pool.mmaps ≤ p.mmaps + 1 := by
  obtain ⟨-, hr⟩ | ⟨-, -, hr⟩ | ⟨b, -, -, -, hr⟩ :=
    genTrampoline_cases template mmap p toMethod entrypoint <;> rw [hr] <;> simp

/-- The `mmap` calls of the run all return a block. -/
def AllSucceed (mmap : Mmap) (n : Nat) : Prop := ∀ k < n, mmap k ≠ none

/-- One more call of a run without failures. -/
theorem genStep_lays (hnull : NonNullBlocks mmap) (hapart : ApartBlocks mmap) {s : GenState}
    {c : GenCall} (h : PoolInv abi mmap s.pool s.made)
    (hall : AllSucceed mmap (genStep abi template mmap s c).pool.mmaps) :
    ∃ base, Lays abi mmap (genTrampoline abi template mmap s.pool c.toMethod c.entrypoint)
      ⟨base, c.toMethod, c.entrypoint⟩ s.made := by
  rcases h.step hapart template c.toMethod c.entrypoint with hlay | ⟨hfail, hr⟩
  · exact hlay
  · have hn : s.pool.mmaps < (genStep abi template mmap s c).pool.mmaps := by
      simp [genStep, hr]
    rcases Option.ne_none_iff_exists'.mp (hall _ hn) with ⟨b, hb⟩
    exact absurd (hfail b hb) (hnull _ _ hb)

/-- Every call of a run without failures lays a trampoline down, and the
invariant holds after it. -/
theorem genRun_poolInv (hnull : NonNullBlocks mmap) (hapart : ApartBlocks mmap) (mem : Memory)
    (cs : List GenCall)
    (hall : AllSucceed mmap (genRun abi template mmap (.initial mem) cs).pool.mmaps) :
    let s := genRun abi template mmap (.initial mem) cs
    PoolInv abi mmap s.pool s.made ∧ s.made.length = cs.length := by
  induction cs using List.reverseRecOn with
  | nil => exact ⟨poolInv_initial, rfl⟩
  | append_singleton cs c ih =>
      rw [genRun_snoc] at hall ⊢
      obtain ⟨hinv, hlen⟩ := ih fun k hk =>
        hall k (lt_of_lt_of_le hk (genTrampoline_mmaps_le template _ _ _ _))
      rcases genStep_lays hnull hapart hinv hall with ⟨base, hlay⟩
      refine ⟨?_, ?_⟩
      · simpa [genStep, hlay.made] using hlay.inv
      · simp [genStep, hlay.made, hlen]

/-- A call of a run without failures leaves the bytes of every trampoline made
before it alone. -/
theorem genStep_keeps (hnull : NonNullBlocks mmap) (hapart : ApartBlocks mmap) {s : GenState}
    {c : GenCall} (h : PoolInv abi mmap s.pool s.made)
    (hall : AllSucceed mmap (genStep abi template mmap s c).pool.mmaps)
    {t : Trampoline} (ht : t ∈ s.made) {a : Nat} (ha : (t.span abi).Contains a) :
    (genStep abi template mmap s c).mem a = s.mem a := by
  rcases genStep_lays hnull hapart h hall with ⟨base, hlay⟩
  have happ := (List.pairwise_cons.mp hlay.inv.apart).1 t ht
  refine applyStores_of_disjoint fun st hst hcontains => ?_
  exact happ.symm.not_contains ha ((hlay.stores st hst).contains hcontains)

/-- The trampolines of a prefix of a run keep their bytes to its end. -/
theorem genRun_keeps (hnull : NonNullBlocks mmap) (hapart : ApartBlocks mmap) (mem : Memory)
    (pre post : List GenCall)
    (hall : AllSucceed mmap (genRun abi template mmap (.initial mem) (pre ++ post)).pool.mmaps)
    {t : Trampoline} (ht : t ∈ (genRun abi template mmap (.initial mem) pre).made)
    {a : Nat} (ha : (t.span abi).Contains a) :
    t ∈ (genRun abi template mmap (.initial mem) (pre ++ post)).made ∧
      (genRun abi template mmap (.initial mem) (pre ++ post)).mem a =
        (genRun abi template mmap (.initial mem) pre).mem a := by
  induction post using List.reverseRecOn with
  | nil => simpa using ht
  | append_singleton post c ih =>
      rw [← List.append_assoc, genRun_snoc] at hall ⊢
      have hall' : AllSucceed mmap
          (genRun abi template mmap (.initial mem) (pre ++ post)).pool.mmaps := fun k hk =>
        hall k (lt_of_lt_of_le hk (genTrampoline_mmaps_le template _ _ _ _))
      rcases ih hall' with ⟨hmem, hbyte⟩
      have hinv := (genRun_poolInv hnull hapart mem _ hall').1
      refine ⟨List.mem_append_right _ hmem, ?_⟩
      rw [genStep_keeps hnull hapart hinv hall hmem ha, hbyte]

/-- Installed trampolines lie pairwise apart, start at multiples of the pointer
size, and keep their bytes whatever calls come after. -/
theorem genRun_trampolines_intact (hnull : NonNullBlocks mmap) (haligned : PageAligned mmap)
    (hapart : ApartBlocks mmap) (mem : Memory) (cs : List GenCall)
    (hall : AllSucceed mmap (genRun abi template mmap (.initial mem) cs).pool.mmaps) :
    let s := genRun abi template mmap (.initial mem) cs
    s.made.length = cs.length ∧
    (s.made.Pairwise fun t u => (t.span abi).Apart (u.span abi)) ∧
    (∀ t ∈ s.made, pointerSize abi ∣ (t.span abi).base) ∧
    (∀ pre post, cs = pre ++ post →
      ∀ t ∈ (genRun abi template mmap (.initial mem) pre).made,
        t ∈ s.made ∧ ∀ a, (t.span abi).Contains a →
          s.mem a = (genRun abi template mmap (.initial mem) pre).mem a) := by
  rcases genRun_poolInv hnull hapart mem cs hall with ⟨hinv, hlen⟩
  refine ⟨hlen, hinv.apart, ?_, ?_⟩
  · -- aligned in its block, and the block is aligned
    intro t ht
    rcases hinv.mapped t ht with ⟨k, -, b, hb, -, hwithin, hdvd⟩
    have hblock : pointerSize abi ∣ b := pointerSize_dvd_spaceSize.trans (haligned k b hb)
    have hsum : (t.span abi).base = (t.base - b) + b := (Nat.sub_add_cancel hwithin.1).symm
    rw [hsum]
    exact Nat.dvd_add hdvd hblock
  · rintro pre post rfl t ht
    have hbase : (t.span abi).Contains t.base :=
      ⟨le_refl _, Nat.lt_add_of_pos_right (trampolineSize_pos abi t.entrypoint)⟩
    exact ⟨(genRun_keeps hnull hapart mem pre post hall ht hbase).1, fun a ha =>
      (genRun_keeps hnull hapart mem pre post hall ht ha).2⟩

/-- 150 trampolines of both kinds on aarch64, in two blocks. -/
theorem genRun_trampolines_intact_two_blocks :
    let run := genRun .aarch64 (trampoline .aarch64) (mmapRow 0x10000 2) (.initial fun _ => 0)
    let cs := List.replicate 75 (GenCall.mk 0x1000 0x2000) ++ List.replicate 75 ⟨0x1000, NULL⟩
    (run cs).made.length = cs.length ∧
    ((run cs).made.Pairwise fun t u => (t.span .aarch64).Apart (u.span .aarch64)) ∧
    (∀ t ∈ (run cs).made, pointerSize .aarch64 ∣ (t.span .aarch64).base) ∧
    (∀ pre post, cs = pre ++ post → ∀ t ∈ (run pre).made, t ∈ (run cs).made ∧
      ∀ a, (t.span .aarch64).Contains a → (run cs).mem a = (run pre).mem a) :=
  genRun_trampolines_intact (mmapRow_nonNull (by decide)) (mmapRow_pageAligned (by decide))
    mmapRow_apart _ _ (by unfold AllSucceed; decide +kernel)

end Installed

end Yahfa
