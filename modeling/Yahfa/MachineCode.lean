import Yahfa.HookSpec
import Yahfa.Base.X86
import Yahfa.Base.A32
import Yahfa.Base.A64

/-!
# What the trampolines do when they run

The bytes `genTrampoline` leaves in memory, given the architectural meaning of
their instructions. `hookCode` and `backupCode` are the templates with the
pointers filled in; that the patched copies are these is a matter of positions
(`bytesAt_lay`). A processor that starts at the address handed out then
arrives, with `toMethod` in the argument register, at the entry point stored in
`toMethod` or at the one given (`hook_exec`, `backup_exec`).
-/

namespace Yahfa

open Bytes Machine

/-! ## The patched templates -/

/-- `trampoline`, set up for the offset `d` and filled in. -/
def hookCode (abi : Abi) (d : UInt8) (toMethod : Nat) : List UInt8 :=
  match abi with
  | .i386 =>
      [0x00, 0x00, 0x00, 0x00,
       0xb8] ++ leBytes 4 toMethod ++      -- mov eax, toMethod
      [0xff, 0x70, d,                      -- push [eax + d]
       0xc3]                               -- ret
  | .x86_64 =>
      [0x00, 0x00, 0x00, 0x00,
       0x48, 0xbf] ++ leBytes 8 toMethod ++ -- mov rdi, toMethod
      [0xff, 0x77, d,                      -- push [rdi + d]
       0xc3]                               -- ret
  | .arm =>
      [0x00, 0x00, 0x00, 0x00,
       0x00, 0x00, 0x9f, 0xe5,             -- ldr r0, [pc, #0]
       d, 0xf0, 0x90, 0xe5] ++             -- ldr pc, [r0, #d]
      leBytes 4 toMethod
  | .aarch64 =>
      ([0x00, 0x00, 0x00, 0x00,
        0x60, 0x00, 0x00, 0x58,            -- ldr x0, #12
        0x10, (0x00 : UInt8) ||| d <<< 4, (0x40 : UInt8) ||| d >>> 4, 0xf8, -- ldr x16, [x0, #d]
        0x00, 0x02, 0x1f, 0xd6] : List UInt8) ++ -- br x16
      leBytes 8 toMethod

/-- `trampolineForBackup`, filled in. -/
def backupCode (abi : Abi) (toMethod entrypoint : Nat) : List UInt8 :=
  match abi with
  | .i386 =>
      [0xb8] ++ leBytes 4 toMethod ++      -- mov eax, toMethod
      [0x68] ++ leBytes 4 entrypoint ++    -- push entrypoint
      [0xc3]                               -- ret
  | .x86_64 =>
      [0x48, 0xbf] ++ leBytes 8 entrypoint ++ -- mov rdi, entrypoint
      [0x57,                               -- push rdi
       0x48, 0xbf] ++ leBytes 8 toMethod ++ -- mov rdi, toMethod
      [0xc3]                               -- ret
  | .arm =>
      [0x0c, 0x00, 0x9f, 0xe5,             -- ldr r0, [pc, #12]
       0x01, 0x00, 0x2d, 0xe9,             -- stmfd sp!, {r0}
       0x00, 0x00, 0x9f, 0xe5,             -- ldr r0, [pc, #0]
       0x00, 0x80, 0xbd, 0xe8] ++          -- ldmfd sp!, {pc}
      leBytes 4 toMethod ++ leBytes 4 entrypoint
  | .aarch64 =>
      [0x60, 0x00, 0x00, 0x58,             -- ldr x0, #12
       0x90, 0x00, 0x00, 0x58,             -- ldr x16, #16
       0x00, 0x02, 0x1f, 0xd6] ++          -- br x16
      leBytes 8 toMethod ++ leBytes 8 entrypoint

/-- The code of a trampoline. -/
def code (abi : Abi) (d : UInt8) (toMethod entrypoint : Nat) : List UInt8 :=
  if entrypoint = NULL then hookCode abi d toMethod else backupCode abi toMethod entrypoint

theorem length_hookCode (abi : Abi) (d : UInt8) (toMethod : Nat) :
    (hookCode abi d toMethod).length = sizeofTrampoline abi := by
  cases abi <;> simp [hookCode, sizeofTrampoline]

theorem length_backupCode (abi : Abi) (toMethod entrypoint : Nat) :
    (backupCode abi toMethod entrypoint).length = sizeofTrampolineForBackup abi := by
  cases abi <;> simp [backupCode, sizeofTrampolineForBackup, trampolineForBackup]

theorem length_code (abi : Abi) (d : UInt8) (toMethod entrypoint : Nat) :
    (code abi d toMethod entrypoint).length = trampolineSize abi entrypoint := by
  by_cases he : entrypoint = NULL
  · simp [code, trampolineSize, he, length_hookCode]
  · simp [code, trampolineSize, he, length_backupCode]

section Lay

variable {abi : Abi} {p : Pool} {d : UInt8} {mem : Memory} {toMethod entrypoint : Nat}

/-- The template with the header, once the pointer has been copied over its
placeholder. -/
theorem bytesAt_lay_hook :
    BytesAt (applyStores mem (layTrampoline abi (setupTrampoline abi (trampoline abi) d) p
      toMethod NULL).stores) p.currentTrampolineOff (hookCode abi d toMethod) := by
  -- the template is copied, then the pointer is patched in
  have hcopy := bytesAt_write mem p.currentTrampolineOff
    (setupTrampoline abi (trampoline abi) d).bytes
  cases abi with
  | i386 =>
      have h : BytesAt _ p.currentTrampolineOff
        ([0, 0, 0, 0, 0xb8] ++ [0x78, 0x56, 0x34, 0x12] ++ [0xff, 0x70, d, 0xc3]) := hcopy
      exact h.patch rfl (length_leBytes _ _)
  | x86_64 =>
      have h : BytesAt _ p.currentTrampolineOff
        ([0, 0, 0, 0, 0x48, 0xbf] ++ [0x78, 0x56, 0x34, 0x12, 0x78, 0x56, 0x34, 0x12] ++
          [0xff, 0x77, d, 0xc3]) := hcopy
      exact h.patch rfl (length_leBytes _ _)
  | arm =>
      have h : BytesAt _ p.currentTrampolineOff
        ([0, 0, 0, 0, 0, 0, 0x9f, 0xe5, d, 0xf0, 0x90, 0xe5] ++ [0x78, 0x56, 0x34, 0x12] ++
          []) := hcopy
      exact h.patch rfl (length_leBytes _ _)
  | aarch64 =>
      have h : BytesAt _ p.currentTrampolineOff
        (([0, 0, 0, 0, 0x60, 0, 0, 0x58, 0x10, (0x00 : UInt8) ||| d <<< 4, (0x40 : UInt8) ||| d >>> 4, 0xf8,
          0, 2, 0x1f, 0xd6] : List UInt8) ++ [0x78, 0x56, 0x34, 0x12, 0x89, 0x67, 0x45, 0x23] ++ []) := hcopy
      exact h.patch rfl (length_leBytes _ _)

/-- The template for backups, once both pointers have been copied over their
placeholders. -/
theorem bytesAt_lay_backup {template : Template abi} (he : entrypoint ≠ NULL) :
    BytesAt (applyStores mem (layTrampoline abi template p toMethod entrypoint).stores)
      p.currentTrampolineOff (backupCode abi toMethod entrypoint) := by
  -- the template is copied, then both pointers are patched in, one after the other
  have hcopy := bytesAt_write mem p.currentTrampolineOff (trampolineForBackup abi)
  cases abi <;> simp only [layTrampoline, patchStores, ne_eq, he, not_false_eq_true, if_true]
  case i386 =>
    have h : BytesAt _ p.currentTrampolineOff
      ([0xb8] ++ [0x78, 0x56, 0x34, 0x12] ++ [0x68, 0x78, 0x56, 0x34, 0x12, 0xc3]) := hcopy
    have h1 : BytesAt _ p.currentTrampolineOff
        ([0xb8] ++ leBytes 4 toMethod ++ [0x68] ++ [0x78, 0x56, 0x34, 0x12] ++ [0xc3]) :=
      h.patch rfl (length_leBytes 4 _)
    exact h1.patch rfl (length_leBytes 4 _)
  case x86_64 =>
    have h : BytesAt _ p.currentTrampolineOff
      ([0x48, 0xbf] ++ [0x78, 0x56, 0x34, 0x12, 0x78, 0x56, 0x34, 0x12] ++
        [0x57, 0x48, 0xbf, 0x78, 0x56, 0x34, 0x12, 0x78, 0x56, 0x34, 0x12, 0xc3]) := hcopy
    have h1 : BytesAt _ p.currentTrampolineOff
        ([0x48, 0xbf] ++ leBytes 8 entrypoint ++ [0x57, 0x48, 0xbf] ++
          [0x78, 0x56, 0x34, 0x12, 0x78, 0x56, 0x34, 0x12] ++ [0xc3]) :=
      h.patch rfl (length_leBytes 8 _)
    exact h1.patch rfl (length_leBytes 8 _)
  case arm =>
    have h : BytesAt _ p.currentTrampolineOff
      ([0x0c, 0, 0x9f, 0xe5, 1, 0, 0x2d, 0xe9, 0, 0, 0x9f, 0xe5, 0, 0x80, 0xbd, 0xe8,
        0x78, 0x56, 0x34, 0x12] ++ [0x78, 0x56, 0x34, 0x12] ++ []) := hcopy
    have h1 : BytesAt _ p.currentTrampolineOff
        ([0x0c, 0, 0x9f, 0xe5, 1, 0, 0x2d, 0xe9, 0, 0, 0x9f, 0xe5, 0, 0x80, 0xbd, 0xe8] ++
          [0x78, 0x56, 0x34, 0x12] ++ leBytes 4 entrypoint) :=
      h.patch rfl (length_leBytes 4 _)
    exact h1.patch rfl (length_leBytes 4 _)
  case aarch64 =>
    have h : BytesAt _ p.currentTrampolineOff
      ([0x60, 0, 0, 0x58, 0x90, 0, 0, 0x58, 0, 2, 0x1f, 0xd6,
        0x78, 0x56, 0x34, 0x12, 0x89, 0x67, 0x45, 0x23] ++
        [0x78, 0x56, 0x34, 0x12, 0x89, 0x67, 0x45, 0x23] ++ []) := hcopy
    have h1 : BytesAt _ p.currentTrampolineOff
        ([0x60, 0, 0, 0x58, 0x90, 0, 0, 0x58, 0, 2, 0x1f, 0xd6] ++
          [0x78, 0x56, 0x34, 0x12, 0x89, 0x67, 0x45, 0x23] ++ leBytes 8 entrypoint) :=
      h.patch rfl (length_leBytes 8 _)
    exact h1.patch rfl (length_leBytes 8 _)

end Lay

/-! ## Processors -/

/-- What is said of a processor: its states and steps, and what one can see of
a state at a jump. -/
structure Isa where
  State : Type
  step : State → Option State
  /-- The memory, at natural addresses. -/
  mem : State → Memory
  /-- Where execution goes on. -/
  target : State → Nat
  /-- The register the method is passed in. -/
  argument : State → Nat
  stack : State → Nat
  /-- The other registers and the flags are the same. -/
  Preserved : State → State → Prop
  /-- The addresses a push writes to. -/
  Pushed : State → Nat → Prop

/-- The x86 processor of the given mode. -/
def x86 {w n : Nat} [NeZero n] (step : X86.State w n → Option (X86.State w n))
    (argument : Fin n) : Isa where
  State := X86.State w n
  step := step
  mem s := view s.mem
  target s := s.ip.toNat
  argument s := (s.reg argument).toNat
  stack s := (s.reg X86.sp).toNat
  Preserved s s' := (∀ r, r ≠ argument → s'.reg r = s.reg r) ∧ s'.flags = s.flags
  Pushed := X86.State.Pushed

/-- The 32-bit ARM processor; bit 0 of a target chooses the instruction set. -/
def a32 : Isa where
  State := A32.State
  step := A32.step
  mem s := view s.mem
  target s := s.target.toNat
  argument s := (s.reg 0).toNat
  stack s := (s.reg A32.sp).toNat
  Preserved s s' := (∀ r, r ≠ 0 → s'.reg r = s.reg r) ∧ s'.apsr = s.apsr
  Pushed := A32.State.Pushed

/-- The 64-bit ARM processor; `x16` is free for trampolines to use. -/
def a64 : Isa where
  State := A64.State
  step := A64.step
  mem s := view s.mem
  target s := s.pc.toNat
  argument s := (s.reg 0).toNat
  stack s := s.sp.toNat
  Preserved s s' := (∀ r, r ≠ 0 → r ≠ 16 → s'.reg r = s.reg r) ∧ s'.nzcv = s.nzcv
  Pushed _ _ := False

/-- The processor of an ABI, with the register its trampolines pass the method
in: `eax`, `rdi`, `r0` or `x0`. -/
def isa : Abi → Isa
  | .i386 => x86 X86.step32 0
  | .x86_64 => x86 X86.step64 7
  | .arm => a32
  | .aarch64 => a64

/-- The processor is about to run the trampoline that `mem` has in `span`. Its
stack is elsewhere, since `mmap` returns pages nothing else is in. -/
structure AboutToRun (I : Isa) (s : I.State) (mem : Memory) (span : Span) (addr : Nat) :
    Prop where
  target : I.target s = addr
  sees : ∀ x, span.Contains x → I.mem s x = mem x
  stack : ∀ x, span.Contains x → ¬ I.Pushed s x

/-- From `s` the processor has arrived at `dest` with the argument register set
to `arg`, and that is all that has changed. -/
structure Arrives (I : Isa) (s s' : I.State) (dest arg : Nat) : Prop where
  steps : Steps I.step s s'
  target : I.target s' = dest
  argument : I.argument s' = arg
  stack : I.stack s' = I.stack s
  preserved : I.Preserved s s'
  mem : ∀ x, ¬ I.Pushed s x → I.mem s' x = I.mem s x

/-! ## x86 -/

section X86

open X86

variable {w n : Nat} [NeZero n] {s t : State w n} {a m : Nat} {zs : List UInt8}

/-- In front of `ret`, after a push and with the argument register set, the
trampoline is about to arrive. -/
theorem arrives_of_push {step : State w n → Option (State w n)} {r : Fin n} {v : Nat}
    (hw : 2 ^ w = 256 ^ (w / 8)) (hr : r ≠ sp) (hv : v < 256 ^ (w / 8)) (hm : m < 256 ^ (w / 8))
    (hsteps : Steps step s t) (h : SameBut r (s.push v) t) (harg : t.reg r = BitVec.ofNat w m)
    (hret : step t = some (Instr.ret.exec t 1)) :
    Arrives (x86 step r) s (Instr.ret.exec t 1) v m := by
  -- the pushed value is popped into the instruction pointer
  have hexec := exec_ret_of_push hr hv h
  refine ⟨hsteps.tail hret, ?_, ?_, ?_, ⟨?_, ?_⟩, ?_⟩
  · change (Instr.ret.exec t 1).ip.toNat = v
    rw [hexec]
    exact Nat.mod_eq_of_lt (hw ▸ hv)
  · change ((Instr.ret.exec t 1).reg r).toNat = m
    rw [hexec]
    simp only [Function.update_of_ne hr, harg]
    exact Nat.mod_eq_of_lt (hw ▸ hm)
  · change ((Instr.ret.exec t 1).reg sp).toNat = (s.reg sp).toNat
    rw [hexec]
    simp only [Function.update_self]
  · intro q hq
    rw [hexec]
    by_cases hsp : q = sp
    · subst hsp
      simp only [Function.update_self]
    · simp only [Function.update_of_ne hsp, h.others q hq]
      simp only [State.push, Function.update_of_ne hsp]
  · rw [hexec]
    exact h.flags
  · intro x hx
    change view (Instr.ret.exec t 1).mem x = view s.mem x
    rw [hexec]
    simp only [h.mem]
    exact view_push hx

/-- `mov eax, m` -/
theorem step_mov_eax {s : State 32 8} (h : BytesAt (view s.mem) a ([0xb8] ++ leBytes 4 m ++ zs))
    (hip : s.ip = BitVec.ofNat 32 a) (hm : m < 256 ^ 4) :
    step32 s = some ((Instr.movImm 0 (BitVec.ofNat 32 m)).exec s 5) := by
  have hop : s.fetch 0 = 0xb8 := (fetch_eq hip 0).trans (h 0 (by simp))
  have himm : imm s.fetch 1 4 = m := (imm_fetch hip 1 4).trans (h.readWord_leBytes _ hm)
  have hdecode := decode32_movImm (r := 0) hop
  rw [himm] at hdecode
  exact step32_of_decode hdecode

/-- `push v` -/
theorem step_push_imm {s : State 32 8} {v : Nat}
    (h : BytesAt (view s.mem) a ([0x68] ++ leBytes 4 v ++ zs))
    (hip : s.ip = BitVec.ofNat 32 a) (hv : v < 256 ^ 4) :
    step32 s = some ((Instr.pushImm (BitVec.ofNat 32 v)).exec s 5) := by
  have hop : s.fetch 0 = 0x68 := (fetch_eq hip 0).trans (h 0 (by simp))
  have himm : imm s.fetch 1 4 = v := (imm_fetch hip 1 4).trans (h.readWord_leBytes _ hv)
  have hdecode := decode32_pushImm hop
  rw [himm] at hdecode
  exact step32_of_decode hdecode

/-- `push [eax + d]` -/
theorem step_push_eax {s : State 32 8} {d : UInt8}
    (h : BytesAt (view s.mem) a ([0xff, 0x70, d] ++ zs)) (hip : s.ip = BitVec.ofNat 32 a)
    (hd : d.toNat < 128) :
    step32 s = some ((Instr.pushMem 0 (BitVec.ofNat 32 d.toNat)).exec s 3) := by
  have h0 : s.fetch 0 = 0xff := (fetch_eq hip 0).trans (h 0 (by simp))
  have h1 : s.fetch 1 = 0x70 := (fetch_eq hip 1).trans (h 1 (by simp))
  have h2 : s.fetch 2 = d := (fetch_eq hip 2).trans (h 2 (by simp))
  have hdecode := decode32_pushMem h0 h1
  rw [h2, disp8_of_lt hd] at hdecode
  exact step32_of_decode hdecode

theorem step_ret {s : State 32 8} (h : BytesAt (view s.mem) a ([0xc3] ++ zs))
    (hip : s.ip = BitVec.ofNat 32 a) : step32 s = some (Instr.ret.exec s 1) :=
  step32_of_decode (decode32_ret ((fetch_eq hip 0).trans (h 0 (by simp))))

/-- `mov rdi, m` -/
theorem step_mov_rdi {s : State 64 16}
    (h : BytesAt (view s.mem) a ([0x48, 0xbf] ++ leBytes 8 m ++ zs))
    (hip : s.ip = BitVec.ofNat 64 a) (hm : m < 256 ^ 8) :
    step64 s = some ((Instr.movImm 7 (BitVec.ofNat 64 m)).exec s 10) := by
  have h0 : s.fetch 0 = 0x48 := (fetch_eq hip 0).trans (h 0 (by simp))
  have h1 : s.fetch 1 = 0xbf := (fetch_eq hip 1).trans (h 1 (by simp))
  have himm : imm s.fetch 2 8 = m := (imm_fetch hip 2 8).trans (h.readWord_leBytes _ hm)
  have hdecode := decode64_movImm h0 h1
  rw [himm] at hdecode
  exact step64_of_decode hdecode

/-- `push rdi` -/
theorem step_push_rdi {s : State 64 16} (h : BytesAt (view s.mem) a ([0x57] ++ zs))
    (hip : s.ip = BitVec.ofNat 64 a) : step64 s = some ((Instr.pushReg 7).exec s 1) :=
  step64_of_decode (decode64_pushReg ((fetch_eq hip 0).trans (h 0 (by simp))))

/-- `push [rdi + d]` -/
theorem step_push_rdi_mem {s : State 64 16} {d : UInt8}
    (h : BytesAt (view s.mem) a ([0xff, 0x77, d] ++ zs)) (hip : s.ip = BitVec.ofNat 64 a)
    (hd : d.toNat < 128) :
    step64 s = some ((Instr.pushMem 7 (BitVec.ofNat 64 d.toNat)).exec s 3) := by
  have h0 : s.fetch 0 = 0xff := (fetch_eq hip 0).trans (h 0 (by simp))
  have h1 : s.fetch 1 = 0x77 := (fetch_eq hip 1).trans (h 1 (by simp))
  have h2 : s.fetch 2 = d := (fetch_eq hip 2).trans (h 2 (by simp))
  have hdecode := decode64_pushMem h0 h1
  rw [h2, disp8_of_lt hd] at hdecode
  exact step64_of_decode hdecode

theorem step_ret64 {s : State 64 16} (h : BytesAt (view s.mem) a ([0xc3] ++ zs))
    (hip : s.ip = BitVec.ofNat 64 a) : step64 s = some (Instr.ret.exec s 1) :=
  step64_of_decode (decode64_ret ((fetch_eq hip 0).trans (h 0 (by simp))))

theorem hook_exec_i386 {s : State 32 8} {d : UInt8}
    (hcode : BytesAt (view s.mem) a (hookCode .i386 d m))
    (hslot : ∀ i < 13, ¬ s.Pushed (a + i)) (hip : s.ip = BitVec.ofNat 32 (a + 4))
    (hd : d.toNat < 128) (hm : m < 256 ^ 4) :
    ∃ s', Arrives (isa .i386) s s' (readWord (view s.mem) (m + d.toNat) 4) m := by
  let s1 := (Instr.movImm 0 (BitVec.ofNat 32 m)).exec s 5
  let s2 := (Instr.pushMem 0 (BitVec.ofNat 32 d.toNat)).exec s1 3
  -- mov eax, m
  have hcode0 : BytesAt (view s.mem) (a + 4)
      ([0xb8] ++ leBytes 4 m ++ [0xff, 0x70, d, 0xc3]) := BytesAt.drop [0, 0, 0, 0] hcode
  have hstep0 : step32 s = some s1 := step_mov_eax hcode0 hip hm
  have hsame1 : SameBut 0 s s1 := (SameBut.refl 0 s).movImm _ _
  have harg1 : s1.reg 0 = BitVec.ofNat 32 m := Function.update_self 0 _ s.reg
  have hip1 : s1.ip = BitVec.ofNat 32 (a + 9) := next_ip hip 5
  -- push dword [eax + d]
  have hcode1 : BytesAt (view s1.mem) (a + 9) ([0xff, 0x70, d] ++ [0xc3]) :=
    BytesAt.drop ([0, 0, 0, 0, 0xb8] ++ leBytes 4 m) hcode
  have hstep1 : step32 s1 = some s2 := step_push_eax hcode1 hip1 hd
  have hsame2 : SameBut 0 (s.push (readWord (view s.mem) (m + d.toNat) 4)) s2 :=
    hsame1.pushMem (by decide) harg1 3
  -- ret, from code that the push did not reach
  have hip2 : s2.ip = BitVec.ofNat 32 (a + 12) := next_ip hip1 3
  have hbehind : BytesAt (view s2.mem) a (hookCode .i386 d m) := hsame2.bytesAt hcode hslot
  have hcode2 : BytesAt (view s2.mem) (a + 12) ([0xc3] ++ []) :=
    BytesAt.drop ([0, 0, 0, 0, 0xb8] ++ leBytes 4 m ++ [0xff, 0x70, d]) hbehind
  exact ⟨_, arrives_of_push (by norm_num) (by decide) (readWord_lt _ _ _) hm
    ((Steps.refl.tail hstep0).tail hstep1) hsame2 harg1 (step_ret hcode2 hip2)⟩

theorem backup_exec_i386 {s : State 32 8} {e : Nat}
    (hcode : BytesAt (view s.mem) a (backupCode .i386 m e))
    (hslot : ∀ i < 11, ¬ s.Pushed (a + i)) (hip : s.ip = BitVec.ofNat 32 a)
    (hm : m < 256 ^ 4) (he : e < 256 ^ 4) :
    ∃ s', Arrives (isa .i386) s s' e m := by
  let s1 := (Instr.movImm 0 (BitVec.ofNat 32 m)).exec s 5
  let s2 := (Instr.pushImm (BitVec.ofNat 32 e)).exec s1 5
  -- mov eax, m
  have hcode0 : BytesAt (view s.mem) a
      ([0xb8] ++ leBytes 4 m ++ ([0x68] ++ leBytes 4 e ++ [0xc3])) := hcode
  have hstep0 : step32 s = some s1 := step_mov_eax hcode0 hip hm
  have hsame1 : SameBut 0 s s1 := (SameBut.refl 0 s).movImm _ _
  have harg1 : s1.reg 0 = BitVec.ofNat 32 m := Function.update_self 0 _ s.reg
  have hip1 : s1.ip = BitVec.ofNat 32 (a + 5) := next_ip hip 5
  -- push e
  have hcode1 : BytesAt (view s1.mem) (a + 5) ([0x68] ++ leBytes 4 e ++ [0xc3]) :=
    BytesAt.drop ([0xb8] ++ leBytes 4 m) hcode
  have hstep1 : step32 s1 = some s2 := step_push_imm hcode1 hip1 he
  have hsame2 : SameBut 0 (s.push e) s2 := hsame1.pushImm (by decide) he 5
  -- ret
  have hip2 : s2.ip = BitVec.ofNat 32 (a + 10) := next_ip hip1 5
  have hbehind : BytesAt (view s2.mem) a (backupCode .i386 m e) := hsame2.bytesAt hcode hslot
  have hcode2 : BytesAt (view s2.mem) (a + 10) ([0xc3] ++ []) :=
    BytesAt.drop ([0xb8] ++ leBytes 4 m ++ [0x68] ++ leBytes 4 e) hbehind
  exact ⟨_, arrives_of_push (by norm_num) (by decide) he hm
    ((Steps.refl.tail hstep0).tail hstep1) hsame2 harg1 (step_ret hcode2 hip2)⟩

theorem hook_exec_x86_64 {s : State 64 16} {d : UInt8}
    (hcode : BytesAt (view s.mem) a (hookCode .x86_64 d m))
    (hslot : ∀ i < 18, ¬ s.Pushed (a + i)) (hip : s.ip = BitVec.ofNat 64 (a + 4))
    (hd : d.toNat < 128) (hm : m < 256 ^ 8) :
    ∃ s', Arrives (isa .x86_64) s s' (readWord (view s.mem) (m + d.toNat) 8) m := by
  let s1 := (Instr.movImm 7 (BitVec.ofNat 64 m)).exec s 10
  let s2 := (Instr.pushMem 7 (BitVec.ofNat 64 d.toNat)).exec s1 3
  -- mov rdi, m
  have hcode0 : BytesAt (view s.mem) (a + 4)
      ([0x48, 0xbf] ++ leBytes 8 m ++ [0xff, 0x77, d, 0xc3]) := BytesAt.drop [0, 0, 0, 0] hcode
  have hstep0 : step64 s = some s1 := step_mov_rdi hcode0 hip hm
  have hsame1 : SameBut 7 s s1 := (SameBut.refl 7 s).movImm _ _
  have harg1 : s1.reg 7 = BitVec.ofNat 64 m := Function.update_self 7 _ s.reg
  have hip1 : s1.ip = BitVec.ofNat 64 (a + 14) := next_ip hip 10
  -- push qword [rdi + d]
  have hcode1 : BytesAt (view s1.mem) (a + 14) ([0xff, 0x77, d] ++ [0xc3]) :=
    BytesAt.drop ([0, 0, 0, 0, 0x48, 0xbf] ++ leBytes 8 m) hcode
  have hstep1 : step64 s1 = some s2 := step_push_rdi_mem hcode1 hip1 hd
  have hsame2 : SameBut 7 (s.push (readWord (view s.mem) (m + d.toNat) 8)) s2 :=
    hsame1.pushMem (by decide) harg1 3
  -- ret
  have hip2 : s2.ip = BitVec.ofNat 64 (a + 17) := next_ip hip1 3
  have hbehind : BytesAt (view s2.mem) a (hookCode .x86_64 d m) := hsame2.bytesAt hcode hslot
  have hcode2 : BytesAt (view s2.mem) (a + 17) ([0xc3] ++ []) :=
    BytesAt.drop ([0, 0, 0, 0, 0x48, 0xbf] ++ leBytes 8 m ++ [0xff, 0x77, d]) hbehind
  exact ⟨_, arrives_of_push (by norm_num) (by decide) (readWord_lt _ _ _) hm
    ((Steps.refl.tail hstep0).tail hstep1) hsame2 harg1 (step_ret64 hcode2 hip2)⟩

theorem backup_exec_x86_64 {s : State 64 16} {e : Nat}
    (hcode : BytesAt (view s.mem) a (backupCode .x86_64 m e))
    (hslot : ∀ i < 22, ¬ s.Pushed (a + i)) (hip : s.ip = BitVec.ofNat 64 a)
    (hm : m < 256 ^ 8) (he : e < 256 ^ 8) :
    ∃ s', Arrives (isa .x86_64) s s' e m := by
  let s1 := (Instr.movImm 7 (BitVec.ofNat 64 e)).exec s 10
  let s2 := (Instr.pushReg 7).exec s1 1
  let s3 := (Instr.movImm 7 (BitVec.ofNat 64 m)).exec s2 10
  have hcode0 : BytesAt (view s.mem) a ([0x48, 0xbf] ++ leBytes 8 e ++
      ([0x57, 0x48, 0xbf] ++ leBytes 8 m ++ [0xc3])) := hcode
  have hstep0 : step64 s = some s1 := step_mov_rdi hcode0 hip he
  have hsame1 : SameBut 7 s s1 := (SameBut.refl 7 s).movImm _ _
  have harg1 : s1.reg 7 = BitVec.ofNat 64 e := Function.update_self 7 _ s.reg
  have hip1 : s1.ip = BitVec.ofNat 64 (a + 10) := next_ip hip 10
  have hcode1 : BytesAt (view s1.mem) (a + 10)
      ([0x57] ++ ([0x48, 0xbf] ++ leBytes 8 m ++ [0xc3])) :=
    BytesAt.drop ([0x48, 0xbf] ++ leBytes 8 e) hcode
  have hstep1 : step64 s1 = some s2 := step_push_rdi hcode1 hip1
  have hsame2 : SameBut 7 (s.push e) s2 := hsame1.pushReg (by decide) he harg1 1
  have hip2 : s2.ip = BitVec.ofNat 64 (a + 11) := next_ip hip1 1
  -- the rest of the code is still there
  have hbehind : BytesAt (view s2.mem) a (backupCode .x86_64 m e) := hsame2.bytesAt hcode hslot
  have hcode2 : BytesAt (view s2.mem) (a + 11) ([0x48, 0xbf] ++ leBytes 8 m ++ [0xc3]) :=
    BytesAt.drop ([0x48, 0xbf] ++ leBytes 8 e ++ [0x57]) hbehind
  have hstep2 : step64 s2 = some s3 := step_mov_rdi hcode2 hip2 hm
  have hsame3 : SameBut 7 (s.push e) s3 := hsame2.movImm _ _
  have harg3 : s3.reg 7 = BitVec.ofNat 64 m := Function.update_self 7 _ s2.reg
  have hip3 : s3.ip = BitVec.ofNat 64 (a + 21) := next_ip hip2 10
  have hcode3 : BytesAt (view s3.mem) (a + 21) ([0xc3] ++ []) :=
    BytesAt.drop ([0x48, 0xbf] ++ leBytes 8 e ++ [0x57, 0x48, 0xbf] ++ leBytes 8 m) hbehind
  exact ⟨_, arrives_of_push (by norm_num) (by decide) he hm
    (((Steps.refl.tail hstep0).tail hstep1).tail hstep2) hsame3 harg3 (step_ret64 hcode3 hip3)⟩

end X86

/-! ## ARM -/

section Arm

open A32

variable {s : A32.State} {a m e : Nat} {d : UInt8}

/-- A branch to a word leaves everything else as it is. -/
theorem toNat_target_branch {v : Nat} (hv : v < 256 ^ 4) :
    (s.branch (BitVec.ofNat 32 v)).target.toNat = v := by
  rw [target_branch]
  exact Nat.mod_eq_of_lt hv

theorem hook_exec_arm (hcode : BytesAt (view s.mem) a (hookCode .arm d m)) (ha : 4 ∣ a)
    (htarget : s.target = BitVec.ofNat 32 (a + 4)) (hm : m < 256 ^ 4) :
    ∃ s', Arrives (isa .arm) s s' (readWord (view s.mem) (m + d.toNat) 4) m := by
  have halign : s.target &&& 3 = 0 := by
    rw [htarget]
    exact ofNat_and_three (by omega)
  rcases thumb_eq_false halign with ⟨hthumb, hpc, -⟩
  rw [htarget] at hpc
  let s1 : A32.State :=
    { s with reg := Function.update s.reg 0 (BitVec.ofNat 32 m), pc := s.pc + 4 }
  -- ldr r0, the literal behind the code
  have hcode0 : BytesAt (view s.mem) (a + 4)
      ([0x00, 0x00, 0x9f, 0xe5] ++ ([d, 0xf0, 0x90, 0xe5] ++ leBytes 4 m)) :=
    BytesAt.drop [0, 0, 0, 0] hcode
  have hliteral : BytesAt (view s.mem) a
      ([0, 0, 0, 0, 0, 0, 0x9f, 0xe5, d, 0xf0, 0x90, 0xe5] ++ leBytes 4 m ++ []) := hcode
  have hstep0 : step s = some s1 :=
    step_ldr_literal 0 hcode0 hthumb hpc (by omega) (hliteral.readWord_leBytes _ hm)
  have hpc1 : s1.pc = BitVec.ofNat 32 (a + 8) := next_pc hpc
  have harg1 : s1.reg 0 = BitVec.ofNat 32 m := Function.update_self 0 _ s.reg
  -- ldr pc, [r0 + d]
  have hcode1 : BytesAt (view s1.mem) (a + 8) ([d, 0xf0, 0x90, 0xe5] ++ leBytes 4 m) :=
    BytesAt.drop [0, 0, 0, 0, 0, 0, 0x9f, 0xe5] hcode
  have hstep1 := step_ldr_pc d hcode1 hthumb hpc1 (by omega) harg1
  refine ⟨_, (Steps.refl.tail hstep0).tail hstep1, ?_, ?_, rfl, ⟨?_, rfl⟩, fun _ _ => rfl⟩
  · exact toNat_target_branch (readWord_lt _ _ _)
  · change (s1.reg 0).toNat = m
    rw [harg1]
    exact Nat.mod_eq_of_lt hm
  · intro r hr
    exact Function.update_of_ne hr _ _

theorem backup_exec_arm (hcode : BytesAt (view s.mem) a (backupCode .arm m e))
    (hslot : ∀ i < 24, ¬ s.Pushed (a + i)) (ha : 4 ∣ a) (htarget : s.target = BitVec.ofNat 32 a)
    (hm : m < 256 ^ 4) (he : e < 256 ^ 4) :
    ∃ s', Arrives (isa .arm) s s' e m := by
  have halign : s.target &&& 3 = 0 := by
    rw [htarget]
    exact ofNat_and_three ha
  rcases thumb_eq_false halign with ⟨hthumb, hpc, -⟩
  rw [htarget] at hpc
  let s1 : A32.State :=
    { s with reg := Function.update s.reg 0 (BitVec.ofNat 32 e), pc := s.pc + 4 }
  let s2 := (Instr.push 0).exec s1
  let s3 : A32.State :=
    { s2 with reg := Function.update s2.reg 0 (BitVec.ofNat 32 m), pc := s2.pc + 4 }
  let s4 := (Instr.pop 15).exec s3
  -- both literals, and the instructions behind the push, are out of its reach
  have hbehind : BytesAt (view s2.mem) a (backupCode .arm m e) := by
    refine hcode.congr fun i hi => ?_
    exact view_push (s := s1) (hslot i hi)
  have hentry : BytesAt (view s.mem) a
      ([0x0c, 0, 0x9f, 0xe5, 1, 0, 0x2d, 0xe9, 0, 0, 0x9f, 0xe5, 0, 0x80, 0xbd, 0xe8] ++
        leBytes 4 m ++ leBytes 4 e ++ []) := hcode
  have hmethod : BytesAt (view s2.mem) a
      ([0x0c, 0, 0x9f, 0xe5, 1, 0, 0x2d, 0xe9, 0, 0, 0x9f, 0xe5, 0, 0x80, 0xbd, 0xe8] ++
        leBytes 4 m ++ leBytes 4 e) := hbehind
  have hcode0 : BytesAt (view s.mem) a ([0x0c, 0x00, 0x9f, 0xe5] ++ _) := hcode
  have hstep0 : step s = some s1 :=
    step_ldr_literal 0x0c hcode0 hthumb hpc ha (hentry.readWord_leBytes _ he)
  have hpc1 : s1.pc = BitVec.ofNat 32 (a + 4) := next_pc hpc
  have harg1 : s1.reg 0 = BitVec.ofNat 32 e := Function.update_self 0 _ s.reg
  have hcode1 : BytesAt (view s1.mem) (a + 4) ([0x01, 0x00, 0x2d, 0xe9] ++ _) :=
    BytesAt.drop [0x0c, 0, 0x9f, 0xe5] hcode
  have hstep1 : step s1 = some s2 := step_of_bytesAt hcode1 hthumb hpc1 (by omega) rfl
  have hpc2 : s2.pc = BitVec.ofNat 32 (a + 8) := next_pc hpc1
  have hcode2 : BytesAt (view s2.mem) (a + 8) ([0x00, 0x00, 0x9f, 0xe5] ++ _) :=
    BytesAt.drop [0x0c, 0, 0x9f, 0xe5, 1, 0, 0x2d, 0xe9] hbehind
  have hstep2 : step s2 = some s3 :=
    step_ldr_literal 0 hcode2 hthumb hpc2 (by omega) (hmethod.readWord_leBytes _ hm)
  have hpc3 : s3.pc = BitVec.ofNat 32 (a + 12) := next_pc hpc2
  have hcode3 : BytesAt (view s3.mem) (a + 12) ([0x00, 0x80, 0xbd, 0xe8] ++ _) :=
    BytesAt.drop [0x0c, 0, 0x9f, 0xe5, 1, 0, 0x2d, 0xe9, 0, 0, 0x9f, 0xe5] hbehind
  have hstep3 : step s3 = some s4 := step_of_bytesAt hcode3 hthumb hpc3 (by omega) rfl
  have hpopped : load s3.mem (s3.reg A32.sp) 4 = e := by
    have hvalue : (s1.read 0).toNat = e := (congrArg BitVec.toNat harg1).trans (Nat.mod_eq_of_lt he)
    change load (store s1.mem (s.reg A32.sp - 4) (leBytes 4 (s1.read 0).toNat))
      (s.reg A32.sp - 4) 4 = e
    rw [hvalue, load_store (by decide), Nat.mod_eq_of_lt he]
  have hstack : s4.reg A32.sp = s.reg A32.sp := BitVec.sub_add_cancel _ _
  refine ⟨s4, (((Steps.refl.tail hstep0).tail hstep1).tail hstep2).tail hstep3, ?_, ?_,
    congrArg BitVec.toNat hstack, ⟨fun r hr => ?_, rfl⟩, fun x hx => view_push (s := s1) hx⟩
  · change (A32.State.branch _ (BitVec.ofNat 32 (load s3.mem (s3.reg A32.sp) 4))).target.toNat = e
    rw [hpopped]
    exact toNat_target_branch he
  · change (BitVec.ofNat 32 m).toNat = m
    exact Nat.mod_eq_of_lt hm
  · by_cases hsp : r = A32.sp
    · subst hsp
      exact hstack
    · calc s4.reg r = s3.reg r := Function.update_of_ne hsp _ s3.reg
        _ = s2.reg r := Function.update_of_ne hr _ s2.reg
        _ = s1.reg r := Function.update_of_ne hsp _ s1.reg
        _ = s.reg r := Function.update_of_ne hr _ s.reg

end Arm

section Arm64

open A64

variable {s : A64.State} {a m e : Nat} {d : UInt8}

/-- `x16` branched to, with `x0` set. -/
theorem arrives_a64 {t : A64.State} {v : Nat} (hv : v < 256 ^ 8) (hm : m < 256 ^ 8)
    (hsteps : Steps A64.step s t) (hpc : t.pc = BitVec.ofNat 64 v)
    (hreg : t.reg = Function.update (Function.update s.reg 0 (BitVec.ofNat 64 m)) 16
      (BitVec.ofNat 64 v))
    (hsp : t.sp = s.sp) (hnzcv : t.nzcv = s.nzcv) (hmem : t.mem = s.mem) :
    Arrives (isa .aarch64) s t v m := by
  refine ⟨hsteps, ?_, ?_, congrArg BitVec.toNat hsp, ⟨fun r h0 h16 => ?_, hnzcv⟩, fun x _ => ?_⟩
  · change t.pc.toNat = v
    rw [hpc]
    exact Nat.mod_eq_of_lt hv
  · change (t.reg 0).toNat = m
    rw [hreg, Function.update_of_ne (by decide), Function.update_self]
    exact Nat.mod_eq_of_lt hm
  · rw [hreg, Function.update_of_ne h16, Function.update_of_ne h0]
  · change view t.mem x = view s.mem x
    rw [hmem]

theorem hook_exec_aarch64 (hcode : BytesAt (view s.mem) a (hookCode .aarch64 d m)) (ha : 4 ∣ a)
    (hpc : s.pc = BitVec.ofNat 64 (a + 4)) (hm : m < 256 ^ 8) :
    ∃ s', Arrives (isa .aarch64) s s' (readWord (view s.mem) (m + d.toNat) 8) m := by
  let v := readWord (view s.mem) (m + d.toNat) 8
  let s1 : A64.State :=
    { s with reg := Function.update s.reg 0 (BitVec.ofNat 64 m), pc := s.pc + 4 }
  let s2 : A64.State :=
    { s1 with reg := Function.update s1.reg 16 (BitVec.ofNat 64 v), pc := s1.pc + 4 }
  let s3 : A64.State := { s2 with pc := s2.reg 16 }
  have hliteral : BytesAt (view s.mem) a
      (([0, 0, 0, 0, 0x60, 0, 0, 0x58, 0x10, (0x00 : UInt8) ||| d <<< 4, (0x40 : UInt8) ||| d >>> 4,
        0xf8, 0, 2, 0x1f, 0xd6] : List UInt8) ++ leBytes 8 m ++ []) := hcode
  -- ldr x0, the literal behind the code
  have hcode0 : BytesAt (view s.mem) (a + 4) ([0x60, 0x00, 0x00, 0x58] ++ _) :=
    BytesAt.drop [0, 0, 0, 0] hcode
  have hstep0 : step s = some s1 :=
    step_ldr_literal 0 hcode0 hpc (by omega) (k := 12) (by decide) (hliteral.readWord_leBytes _ hm)
  have hpc1 : s1.pc = BitVec.ofNat 64 (a + 8) := next_pc hpc
  have harg1 : s1.reg 0 = BitVec.ofNat 64 m := Function.update_self 0 _ s.reg
  -- ldr x16, [x0 + d]
  have hcode1 : BytesAt (view s1.mem) (a + 8) (([0x10, (0x00 : UInt8) ||| d <<< 4,
      (0x40 : UInt8) ||| d >>> 4, 0xf8] : List UInt8) ++ _) :=
    BytesAt.drop [0, 0, 0, 0, 0x60, 0, 0, 0x58] hcode
  have hstep1 : step s1 = some s2 := step_ldr_x16 d hcode1 hpc1 (by omega) harg1
  -- br x16
  have hpc2 : s2.pc = BitVec.ofNat 64 (a + 12) := next_pc hpc1
  have hcode2 : BytesAt (view s2.mem) (a + 12) ([0x00, 0x02, 0x1f, 0xd6] ++ _) :=
    BytesAt.drop ([0, 0, 0, 0, 0x60, 0, 0, 0x58, 0x10, (0x00 : UInt8) ||| d <<< 4,
      (0x40 : UInt8) ||| d >>> 4, 0xf8] : List UInt8) hcode
  have hstep2 : step s2 = some s3 := step_br_x16 hcode2 hpc2 (by omega)
  exact ⟨s3, arrives_a64 (readWord_lt _ _ _) hm
    (((Steps.refl.tail hstep0).tail hstep1).tail hstep2)
    (Function.update_self 16 _ s1.reg) rfl rfl rfl rfl⟩

theorem backup_exec_aarch64 (hcode : BytesAt (view s.mem) a (backupCode .aarch64 m e))
    (ha : 4 ∣ a) (hpc : s.pc = BitVec.ofNat 64 a) (hm : m < 256 ^ 8) (he : e < 256 ^ 8) :
    ∃ s', Arrives (isa .aarch64) s s' e m := by
  let s1 : A64.State :=
    { s with reg := Function.update s.reg 0 (BitVec.ofNat 64 m), pc := s.pc + 4 }
  let s2 : A64.State :=
    { s1 with reg := Function.update s1.reg 16 (BitVec.ofNat 64 e), pc := s1.pc + 4 }
  let s3 : A64.State := { s2 with pc := s2.reg 16 }
  have hmethod : BytesAt (view s.mem) a
      ([0x60, 0, 0, 0x58, 0x90, 0, 0, 0x58, 0, 2, 0x1f, 0xd6] ++ leBytes 8 m ++ leBytes 8 e) := hcode
  have hentry : BytesAt (view s.mem) a
      ([0x60, 0, 0, 0x58, 0x90, 0, 0, 0x58, 0, 2, 0x1f, 0xd6] ++ leBytes 8 m ++ leBytes 8 e ++ []) :=
    hcode
  -- ldr x0, the first literal
  have hcode0 : BytesAt (view s.mem) a ([0x60, 0x00, 0x00, 0x58] ++ _) := hcode
  have hstep0 : step s = some s1 :=
    step_ldr_literal 0 hcode0 hpc ha (k := 12) (by decide) (hmethod.readWord_leBytes _ hm)
  have hpc1 : s1.pc = BitVec.ofNat 64 (a + 4) := next_pc hpc
  -- ldr x16, the second literal
  have hcode1 : BytesAt (view s1.mem) (a + 4) ([0x90, 0x00, 0x00, 0x58] ++ _) :=
    BytesAt.drop [0x60, 0, 0, 0x58] hcode
  have hstep1 : step s1 = some s2 :=
    step_ldr_literal 16 hcode1 hpc1 (by omega) (k := 16) (by decide) (hentry.readWord_leBytes _ he)
  -- br x16
  have hpc2 : s2.pc = BitVec.ofNat 64 (a + 8) := next_pc hpc1
  have hcode2 : BytesAt (view s2.mem) (a + 8) ([0x00, 0x02, 0x1f, 0xd6] ++ _) :=
    BytesAt.drop [0x60, 0, 0, 0x58, 0x90, 0, 0, 0x58] hcode
  have hstep2 : step s2 = some s3 := step_br_x16 hcode2 hpc2 (by omega)
  exact ⟨s3, arrives_a64 he hm (((Steps.refl.tail hstep0).tail hstep1).tail hstep2)
    (Function.update_self 16 _ s1.reg) rfl rfl rfl rfl⟩

end Arm64

/-! ## Placeholders -/

/-- The bytes that stand for a pointer in the templates. -/
def placeholder : Abi → List UInt8
  | .i386 | .arm => [0x78, 0x56, 0x34, 0x12]
  | .x86_64 => [0x78, 0x56, 0x34, 0x12, 0x78, 0x56, 0x34, 0x12]
  | .aarch64 => [0x78, 0x56, 0x34, 0x12, 0x89, 0x67, 0x45, 0x23]

/-- The template `genTrampoline` copies, as the library is loaded. -/
def templateBytes (abi : Abi) (entrypoint : Nat) : List UInt8 :=
  if entrypoint = NULL then (trampoline abi).bytes else trampolineForBackup abi

/-- A placeholder starts at the `k`-th byte of the template. -/
def PlaceholderAt (abi : Abi) (entrypoint k : Nat) : Prop :=
  ((templateBytes abi entrypoint).drop k).take (pointerSize abi) = placeholder abi

/-- Where the pointer to the method is in a trampoline. -/
def methodOffset (abi : Abi) (entrypoint : Nat) : Nat :=
  if entrypoint = NULL then
    match abi with
    | .i386 => 5
    | .x86_64 => 6
    | .arm => 12
    | .aarch64 => 16
  else
    match abi with
    | .i386 => 1
    | .x86_64 => 13
    | .arm => 16
    | .aarch64 => 12

/-- Where the entry point is in a trampoline that carries one. -/
def entryOffset : Abi → Nat
  | .i386 => 6
  | .x86_64 => 2
  | .arm => 20
  | .aarch64 => 20

/-- There are no other placeholders. -/
theorem placeholderAt_cases {abi : Abi} {entrypoint k : Nat} (h : PlaceholderAt abi entrypoint k) :
    k = methodOffset abi entrypoint ∨ entrypoint ≠ NULL ∧ k = entryOffset abi := by
  have hlt : k < 28 := by
    by_contra hge
    have hlen := congrArg List.length h
    simp only [List.length_take, List.length_drop, templateBytes] at hlen
    cases abi <;> split at hlen <;>
      simp [trampoline, trampolineForBackup, placeholder, pointerSize] at hlen <;> omega
  by_cases he : entrypoint = NULL
  · simp only [PlaceholderAt, templateBytes, methodOffset, if_pos he] at h ⊢
    left
    revert k
    cases abi <;> decide
  · simp only [PlaceholderAt, templateBytes, methodOffset, ne_eq, he, not_false_eq_true, if_false,
      true_and] at h ⊢
    revert k
    cases abi <;> decide

section Pointers

variable {abi : Abi} {mem : Memory} {a toMethod entrypoint : Nat} {d : UInt8}

theorem readAddr_methodOffset (h : BytesAt mem a (code abi d toMethod entrypoint))
    (hm : toMethod < addressSpace abi) :
    readAddr abi mem (a + methodOffset abi entrypoint) = toMethod := by
  by_cases he : entrypoint = NULL
  · rw [code, if_pos he] at h
    simp only [methodOffset, if_pos he]
    cases abi with
    | i386 => exact BytesAt.readWord_leBytes [0, 0, 0, 0, 0xb8] h hm
    | x86_64 => exact BytesAt.readWord_leBytes [0, 0, 0, 0, 0x48, 0xbf] h hm
    | arm =>
        have h' : BytesAt mem a ([0, 0, 0, 0, 0, 0, 0x9f, 0xe5, d, 0xf0, 0x90, 0xe5] ++
          leBytes 4 toMethod ++ []) := h
        exact h'.readWord_leBytes _ hm
    | aarch64 =>
        have h' : BytesAt mem a (([0, 0, 0, 0, 0x60, 0, 0, 0x58, 0x10, (0x00 : UInt8) ||| d <<< 4,
          (0x40 : UInt8) ||| d >>> 4, 0xf8, 0, 2, 0x1f, 0xd6] : List UInt8) ++
          leBytes 8 toMethod ++ []) := h
        exact h'.readWord_leBytes _ hm
  · rw [code, if_neg he] at h
    simp only [methodOffset, if_neg he]
    cases abi with
    | i386 =>
        have h' : BytesAt mem a ([0xb8] ++ leBytes 4 toMethod ++
          ([0x68] ++ leBytes 4 entrypoint ++ [0xc3])) := h
        exact h'.readWord_leBytes _ hm
    | x86_64 =>
        have h' : BytesAt mem a ([0x48, 0xbf] ++ leBytes 8 entrypoint ++ [0x57, 0x48, 0xbf] ++
          leBytes 8 toMethod ++ [0xc3]) := h
        exact h'.readWord_leBytes _ hm
    | arm =>
        exact BytesAt.readWord_leBytes
          [0x0c, 0, 0x9f, 0xe5, 1, 0, 0x2d, 0xe9, 0, 0, 0x9f, 0xe5, 0, 0x80, 0xbd, 0xe8] h hm
    | aarch64 =>
        exact BytesAt.readWord_leBytes [0x60, 0, 0, 0x58, 0x90, 0, 0, 0x58, 0, 2, 0x1f, 0xd6] h hm

theorem readAddr_entryOffset (h : BytesAt mem a (code abi d toMethod entrypoint))
    (hnull : entrypoint ≠ NULL) (he : entrypoint < addressSpace abi) :
    readAddr abi mem (a + entryOffset abi) = entrypoint := by
  rw [code, if_neg hnull] at h
  cases abi with
  | i386 => exact BytesAt.readWord_leBytes ([0xb8] ++ leBytes 4 toMethod ++ [0x68]) h he
  | x86_64 =>
      have h' : BytesAt mem a ([0x48, 0xbf] ++ leBytes 8 entrypoint ++
        ([0x57, 0x48, 0xbf] ++ leBytes 8 toMethod ++ [0xc3])) := h
      exact h'.readWord_leBytes _ he
  | arm =>
      have h' : BytesAt mem a
        ([0x0c, 0, 0x9f, 0xe5, 1, 0, 0x2d, 0xe9, 0, 0, 0x9f, 0xe5, 0, 0x80, 0xbd, 0xe8] ++
          leBytes 4 toMethod ++ leBytes 4 entrypoint ++ []) := h
      exact h'.readWord_leBytes _ he
  | aarch64 =>
      have h' : BytesAt mem a ([0x60, 0, 0, 0x58, 0x90, 0, 0, 0x58, 0, 2, 0x1f, 0xd6] ++
        leBytes 8 toMethod ++ leBytes 8 entrypoint ++ []) := h
      exact h'.readWord_leBytes _ he

end Pointers

/-! ## From `init` and `genTrampoline` to the processor -/

theorem initSwitch_trampoline {abi : Abi} (sdkVersion : Int) (g : Statics abi) :
    (initSwitch sdkVersion g).trampoline = g.trampoline := by
  have hcase {P : Prop} [Decidable P] {g₁ g₂ : Statics abi} (h₁ : g₁.trampoline = g.trampoline)
      (h₂ : g₂.trampoline = g.trampoline) : (if P then g₁ else g₂).trampoline = g.trampoline := by
    rw [apply_ite Statics.trampoline, h₁, h₂, ite_self]
  unfold initSwitch
  -- no case writes the template
  repeat refine hcase rfl ?_
  rfl

/-- `init` sets the template up for the offset it has chosen. -/
theorem initialized_trampoline (abi : Abi) (sdkVersion : Int) :
    (initialized abi sdkVersion).trampoline = setupTrampoline abi (trampoline abi)
      (UInt8.ofNat (initialized abi sdkVersion).offsetEntryPointFromQuickCompiledCode) := by
  simp only [initialized, init, initSwitch_trampoline]
  rfl

/-- The offsets are small: not negative as 8-bit displacements. -/
theorem offset_lt (abi : Abi) (sdkVersion : Int) :
    (initialized abi sdkVersion).offsetEntryPointFromQuickCompiledCode < 128 := by
  by_cases hsdk : sdkVersion ∈ handledLevels
  · revert sdkVersion
    cases abi <;> decide +kernel
  · rw [initialized_unhandled hsdk]
    exact Nat.zero_lt_succ 127

/-- The offset the trampolines of an SDK level carry. -/
def setupOffset (abi : Abi) (sdkVersion : Int) : UInt8 :=
  UInt8.ofNat (initialized abi sdkVersion).offsetEntryPointFromQuickCompiledCode

theorem toNat_setupOffset (abi : Abi) (sdkVersion : Int) :
    (setupOffset abi sdkVersion).toNat =
      (initialized abi sdkVersion).offsetEntryPointFromQuickCompiledCode := by
  exact UInt8.toNat_ofNat_of_lt' ((offset_lt abi sdkVersion).trans (by decide))

section Calls

variable {abi : Abi} {template : Template abi} {mmap : Mmap} {p : Pool} {t : Trampoline}
  {toMethod entrypoint : Nat}

/-- A call that makes a trampoline lays it down where the pool stood or at the
start of a fresh block. -/
theorem genTrampoline_made
    (h : (genTrampoline abi template mmap p toMethod entrypoint).made = some t) :
    ∃ p', genTrampoline abi template mmap p toMethod entrypoint =
        layTrampoline abi template p' toMethod entrypoint ∧
      (p' = p ∨ mmap p.mmaps = some p'.currentTrampolineOff) := by
  rcases genTrampoline_cases template mmap p toMethod entrypoint with
    ⟨-, hr⟩ | ⟨-, -, hr⟩ | ⟨b, -, hb, -, hr⟩
  · exact ⟨p, hr, Or.inl rfl⟩
  · rw [hr] at h
    cases h
  · exact ⟨_, hr, Or.inr hb⟩

/-- The pool stands at a multiple of the pointer size, torn or not. -/
theorem genTrampoline_aligned (haligned : PageAligned mmap)
    (h : pointerSize abi ∣ p.currentTrampolineOff) :
    pointerSize abi ∣
      (genTrampoline abi template mmap p toMethod entrypoint).pool.currentTrampolineOff := by
  rcases roundUp_trampolineSize abi entrypoint with ⟨-, -, hround⟩
  obtain ⟨-, hr⟩ | ⟨-, -, hr⟩ | ⟨b, -, hb, -, hr⟩ :=
    genTrampoline_cases template mmap p toMethod entrypoint <;> rw [hr]
  · exact Nat.dvd_add h hround
  · exact Nat.dvd_zero _
  · exact Nat.dvd_add (pointerSize_dvd_spaceSize.trans (haligned _ _ hb)) hround

theorem genRun_aligned (haligned : PageAligned mmap) (mem : Memory) (cs : List GenCall) :
    pointerSize abi ∣ (genRun abi template mmap (.initial mem) cs).pool.currentTrampolineOff := by
  induction cs using List.reverseRecOn with
  | nil => exact Nat.dvd_zero _
  | append_singleton cs c ih =>
      rw [genRun_snoc]
      exact genTrampoline_aligned haligned ih

/-- The trampoline of a call that makes one, and the code it leaves in memory. -/
theorem genTrampoline_code {d : UInt8} (mem : Memory)
    (htemplate : template = setupTrampoline abi (trampoline abi) d)
    (haligned : PageAligned mmap) (hp : pointerSize abi ∣ p.currentTrampolineOff)
    (hmade : (genTrampoline abi template mmap p toMethod entrypoint).made = some t) :
    t.entrypoint = entrypoint ∧ pointerSize abi ∣ t.base ∧
      (genTrampoline abi template mmap p toMethod entrypoint).ret = t.addr ∧
      BytesAt (applyStores mem (genTrampoline abi template mmap p toMethod entrypoint).stores)
        t.base (code abi d toMethod entrypoint) := by
  subst htemplate
  rcases genTrampoline_made hmade with ⟨p', hr, hp'⟩
  rw [hr] at hmade ⊢
  obtain rfl : ⟨p'.currentTrampolineOff, toMethod, entrypoint⟩ = t := Option.some.inj hmade
  refine ⟨rfl, ?_, rfl, ?_⟩
  · -- laid at the current offset, or at the start of a fresh block
    rcases hp' with rfl | hb
    · exact hp
    · exact pointerSize_dvd_spaceSize.trans (haligned _ _ hb)
  · by_cases he : entrypoint = NULL
    · subst he
      exact bytesAt_lay_hook
    · rw [code, if_neg he]
      exact bytesAt_lay_backup he

end Calls

/-- An address as the bit vector a processor holds. -/
theorem eq_ofNat {w a : Nat} {v : BitVec w} (h : v.toNat = a) : v = BitVec.ofNat w a := by
  rw [← h]
  simp

/-- From the address behind the header, if there is one, the code of a
trampoline arrives at the entry point it is meant for. -/
theorem code_exec {abi : Abi} {s : (isa abi).State} {a m e : Nat} {d : UInt8}
    (hcode : BytesAt ((isa abi).mem s) a (code abi d m e))
    (hslot : ∀ i < trampolineSize abi e, ¬ (isa abi).Pushed s (a + i)) (ha : pointerSize abi ∣ a)
    (htarget : (isa abi).target s = if e = NULL then a + 4 else a) (hd : d.toNat < 128)
    (hm : m < addressSpace abi) (he : e < addressSpace abi) :
    ∃ s', Arrives (isa abi) s s'
      (if e = NULL then readAddr abi ((isa abi).mem s) (m + d.toNat) else e) m := by
  by_cases hnull : e = NULL
  · -- a hook trampoline: execution starts behind the header
    subst hnull
    simp only [code, if_true] at hcode htarget ⊢
    cases abi with
    | i386 => exact hook_exec_i386 hcode hslot (eq_ofNat htarget) hd hm
    | x86_64 => exact hook_exec_x86_64 hcode hslot (eq_ofNat htarget) hd hm
    | arm => exact hook_exec_arm hcode ha (eq_ofNat htarget) hm
    | aarch64 =>
        have h4 : 4 ∣ a := Nat.dvd_trans (by decide) ha
        exact hook_exec_aarch64 hcode h4 (eq_ofNat htarget) hm
  · -- a backup trampoline has no header
    simp only [code, trampolineSize, ne_eq, hnull, if_false, not_false_eq_true, if_true]
      at hcode hslot htarget ⊢
    cases abi with
    | i386 => exact backup_exec_i386 hcode hslot (eq_ofNat htarget) hm he
    | x86_64 => exact backup_exec_x86_64 hcode hslot (eq_ofNat htarget) hm he
    | arm => exact backup_exec_arm hcode hslot ha (eq_ofNat htarget) hm he
    | aarch64 =>
        have h4 : 4 ∣ a := Nat.dvd_trans (by decide) ha
        exact backup_exec_aarch64 hcode h4 (eq_ofNat htarget) hm he

/-- The four bytes in front of a hook trampoline's first instruction. -/
theorem header_eq_zero {abi : Abi} {mem : Memory} {a m : Nat} {d : UInt8}
    (h : BytesAt mem a (hookCode abi d m)) : read32 mem a = 0 := by
  have hzero : BytesAt mem a ([0, 0, 0, 0] ++ (hookCode abi d m).drop 4) := by
    cases abi <;> exact h
  have hword : readWord mem a 4 = 0 := hzero.readWord
  rw [read32, hword]
  rfl

/-- On every ABI and SDK level, and whatever calls came before: a processor that
starts at the address a call of `genTrampoline` returns arrives with `toMethod`
in the argument register at the entry point stored in `toMethod`, or at the one
the call was given. A hook trampoline has a zero `code_size_` in front of it, and
no placeholder is left. -/
theorem genTrampoline_exec (abi : Abi) (sdkVersion : Int) {mmap : Mmap}
    (haligned : PageAligned mmap) (mem : Memory) (cs : List GenCall) (c : GenCall)
    (hm : c.toMethod < addressSpace abi) (he : c.entrypoint < addressSpace abi) :
    let g := initialized abi sdkVersion
    let before := genRun abi g.trampoline mmap (.initial mem) cs
    let r := genTrampoline abi g.trampoline mmap before.pool c.toMethod c.entrypoint
    let after := genStep abi g.trampoline mmap before c
    let seen := (isa abi).mem
    ∀ t, r.made = some t → ∀ s, AboutToRun (isa abi) s after.mem (t.span abi) r.ret →
      (∃ s', Arrives (isa abi) s s'
        (if c.entrypoint = NULL then
          readAddr abi (seen s) (c.toMethod + g.offsetEntryPointFromQuickCompiledCode)
        else c.entrypoint) c.toMethod) ∧
      (c.entrypoint = NULL → read32 (seen s) (r.ret - 4) = 0) ∧
      (∀ k, PlaceholderAt abi c.entrypoint k →
        readAddr abi (seen s) (t.base + k) = c.toMethod ∨
          c.entrypoint ≠ NULL ∧ readAddr abi (seen s) (t.base + k) = c.entrypoint) := by
  intro g before r after seen t hmade s hs
  have htemplate :
      g.trampoline = setupTrampoline abi (trampoline abi) (setupOffset abi sdkVersion) :=
    initialized_trampoline abi sdkVersion
  obtain ⟨hentry, hbase, hret, hlaid⟩ :=
    genTrampoline_code before.mem htemplate haligned (genRun_aligned haligned mem cs) hmade
  -- the processor sees the trampoline as it was laid down
  have hinside : ∀ i < trampolineSize abi c.entrypoint, (t.span abi).Contains (t.base + i) :=
    fun i hi => ⟨Nat.le_add_right _ _, Nat.add_lt_add_left
      (by simpa only [Trampoline.span, hentry] using hi) _⟩
  have hcode : BytesAt (seen s) t.base
      (code abi (setupOffset abi sdkVersion) c.toMethod c.entrypoint) :=
    hlaid.congr fun i hi => hs.sees _ (hinside i (length_code abi _ _ _ ▸ hi))
  have hstart : (isa abi).target s = if c.entrypoint = NULL then t.base + 4 else t.base := by
    rw [hs.target, hret, Trampoline.addr, hentry]
  refine ⟨?_, fun hnull => ?_, fun k hk => ?_⟩
  · rw [← toNat_setupOffset]
    refine code_exec hcode (fun i hi => hs.stack _ (hinside i hi)) hbase hstart ?_ hm he
    rw [toNat_setupOffset]
    exact offset_lt abi sdkVersion
  · rw [code, if_pos hnull] at hcode
    rw [hret, Trampoline.addr, hentry, if_pos hnull, Nat.add_sub_cancel]
    exact header_eq_zero hcode
  · rcases placeholderAt_cases hk with rfl | ⟨hnull, rfl⟩
    · exact Or.inl (readAddr_methodOffset hcode hm)
    · exact Or.inr ⟨hnull, readAddr_entryOffset hcode hnull he⟩

/-- A first trampoline on i386 and Android P, run with the entry point 0x12345678
in the method. -/
theorem genTrampoline_exec_i386 :
    let after := genStep .i386 (initialized .i386 28).trampoline (mmapRow 0x10000 1)
      (.initial fun _ => 0) ⟨0x70001000, NULL⟩
    let s : X86.State 32 8 :=
      { reg := fun r => if r = X86.sp then 0x8000 else 0
        ip := 0x10004
        flags := 0
        mem := fun a => write after.mem 0x70001018 (leBytes 4 0x12345678) a.toNat }
    ∃ s', Arrives (isa .i386) s s' 0x12345678 0x70001000 := by
  intro after s
  have hbytes : ∀ i < 13, view s.mem (0x10000 + i) = after.mem (0x10000 + i) := by decide +kernel
  have hslot : ∀ i < 13, ¬ s.Pushed (0x10000 + i) := by decide +kernel
  have hword : readAddr .i386 ((isa .i386).mem s)
      (0x70001000 + (initialized .i386 28).offsetEntryPointFromQuickCompiledCode) = 0x12345678 := by
    decide +kernel
  have hrun : AboutToRun (isa .i386) s after.mem ⟨0x10000, 13⟩ 0x10004 := by
    refine ⟨rfl, fun x hx => ?_, fun x hx => ?_⟩ <;> obtain ⟨i, rfl⟩ := Nat.exists_eq_add_of_le hx.1
    · exact hbytes i (Nat.add_lt_add_iff_left.mp hx.2)
    · exact hslot i (Nat.add_lt_add_iff_left.mp hx.2)
  have hall := genTrampoline_exec .i386 28 (mmapRow_pageAligned (b := 0x10000) (n := 1)
    (by decide)) (fun _ => 0) [] ⟨0x70001000, NULL⟩ (by decide) (by decide)
    ⟨0x10000, 0x70001000, NULL⟩ rfl s hrun
  have harrives := hall.1
  rw [if_pos rfl, hword] at harrives
  exact harrives

end Yahfa
