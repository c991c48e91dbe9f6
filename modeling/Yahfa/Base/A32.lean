import Yahfa.Base.Machine
import Mathlib.Data.List.FinRange

/-!
# Some instructions of A32

Loads of a word, and pushes and pops of one register, in the 32-bit ARM
instruction set. Reading the program counter gives the address of the
instruction plus 8; loading it branches, and bit 0 of the value then chooses the
instruction set.
-/

namespace A32

open Bytes Machine

/-- The registers, the flags and the memory. -/
structure State where
  /-- `r0` to `r14`; `r13` is the stack pointer. -/
  reg : Fin 15 → BitVec 32
  pc : BitVec 32
  thumb : Bool
  apsr : BitVec 32
  mem : Mem 32

/-- The instructions. -/
inductive Instr where
  /-- `ldr rt, [rn, #imm]` -/
  | ldr (rt rn : Fin 16) (imm : BitVec 32)
  /-- `stmdb sp!, {r}` -/
  | push (r : Fin 16)
  /-- `ldmia sp!, {r}` -/
  | pop (r : Fin 16)
deriving DecidableEq, Repr

/-! ## Meaning -/

/-- The stack pointer. -/
def sp : Fin 15 := 13

/-- Read a register as an operand. -/
def State.read (s : State) (r : Fin 16) : BitVec 32 :=
  if h : r.val < 15 then s.reg ⟨r, h⟩ else s.pc + 8

/-- Branch to a value, choosing the instruction set by its bit 0. -/
def State.branch (s : State) (v : BitVec 32) : State :=
  { s with pc := v &&& ~~~1#32, thumb := v.getLsbD 0 }

/-- Where execution goes on, as a value one could branch to. -/
def State.target (s : State) : BitVec 32 := s.pc ||| (if s.thumb then 1#32 else 0#32)

/-- Load a register and go on; loading the program counter branches. -/
def State.loadReg (s : State) (r : Fin 16) (v : BitVec 32) : State :=
  if h : r.val < 15 then { s with reg := Function.update s.reg ⟨r, h⟩ v, pc := s.pc + 4 }
  else s.branch v

/-- The base of a load: for the program counter, its value aligned. -/
def State.base (s : State) (r : Fin 16) : BitVec 32 :=
  if r.val < 15 then s.read r else s.read r &&& ~~~3

/-- Carry out an instruction. -/
def Instr.exec (s : State) : Instr → State
  | .ldr rt rn imm => s.loadReg rt (BitVec.ofNat 32 (load s.mem (s.base rn + imm) 4))
  | .push r =>
      let top := s.reg sp - 4
      { s with
        reg := Function.update s.reg sp top
        mem := store s.mem top (leBytes 4 (s.read r).toNat)
        pc := s.pc + 4 }
  | .pop r =>
      let v := BitVec.ofNat 32 (load s.mem (s.reg sp) 4)
      { s with reg := Function.update s.reg sp (s.reg sp + 4) }.loadReg r v

/-! ## Decoding -/

/-- The register of a list of registers that has only one; the stack pointer is
not among those that can be pushed or popped. -/
def single (list : BitVec 16) : Option (Fin 16) :=
  (List.finRange 16).find? fun r => list == 1#16 <<< r.val && r.val != 13

/-- The instruction an always executed word stands for. -/
def decode (word : BitVec 32) : Option Instr :=
  let field (k : Nat) : Fin 16 := Fin.ofNat 16 (word.extractLsb' k 4).toNat
  if word.extractLsb' 20 12 = 0xe59#12 then
    some (.ldr (field 12) (field 16) ((word.extractLsb' 0 12).setWidth 32))
  else if word.extractLsb' 16 16 = 0xe92d#16 then (single (word.extractLsb' 0 16)).map .push
  else if word.extractLsb' 16 16 = 0xe8bd#16 then (single (word.extractLsb' 0 16)).map .pop
  else none

/-- One step in A32 state. -/
def step (s : State) : Option State :=
  if s.thumb = false ∧ s.pc &&& 3 = 0 then
    (decode (BitVec.ofNat 32 (load s.mem s.pc 4))).map fun i => i.exec s
  else none

/-! ## Lemmas -/

/-- Bit 0 taken out of a value and put back. -/
theorem clear_or_bit (v : BitVec 32) :
    v &&& ~~~1#32 ||| (if v.getLsbD 0 then 1#32 else 0#32) = v := by
  have hmask : ∀ i : Fin 32, (~~~1#32).getLsbD i = decide (i.val ≠ 0) := by decide
  have hone : ∀ i : Fin 32, (1#32).getLsbD i = decide (i.val = 0) := by decide
  apply BitVec.eq_of_getLsbD_eq
  intro i hi
  rw [BitVec.getLsbD_or, BitVec.getLsbD_and, hmask ⟨i, hi⟩]
  by_cases hv : v.getLsbD 0 = true
  · rw [if_pos hv, hone ⟨i, hi⟩]
    by_cases h0 : i = 0
    · subst h0
      simp [hv]
    · simp [h0]
  · rw [if_neg hv, BitVec.getLsbD_zero, Bool.or_false]
    by_cases h0 : i = 0
    · subst h0
      simpa using hv
    · simp [h0]

@[simp] theorem target_branch (s : State) (v : BitVec 32) : (s.branch v).target = v :=
  clear_or_bit v

/-- An even address is branched to in A32 state. -/
theorem thumb_eq_false {s : State} (h : s.target &&& 3 = 0) :
    s.thumb = false ∧ s.pc = s.target ∧ s.pc &&& 3 = 0 := by
  cases ht : s.thumb with
  | false =>
      have hpc : s.pc = s.target := by simp [State.target, ht]
      exact ⟨rfl, hpc, hpc ▸ h⟩
  | true =>
      have hbit := congrArg (fun v : BitVec 32 => v.getLsbD 0) h
      simp [State.target, ht] at hbit

/-- A step on an instruction in memory. -/
theorem step_of_bytesAt {s : State} {a : Nat} {b₀ b₁ b₂ b₃ : UInt8} {zs : List UInt8} {i : Instr}
    (h : BytesAt (view s.mem) a ([b₀, b₁, b₂, b₃] ++ zs)) (ht : s.thumb = false)
    (hpc : s.pc = BitVec.ofNat 32 a) (ha : 4 ∣ a)
    (hi : decode (BitVec.ofNat 32 (ofBytes [b₀, b₁, b₂, b₃])) = some i) :
    step s = some (i.exec s) := by
  have halign : s.pc &&& 3 = 0 := by
    rw [hpc]
    exact ofNat_and_three ha
  have hword : readWord (view s.mem) a 4 = ofBytes [b₀, b₁, b₂, b₃] := h.readWord
  rw [step, if_pos ⟨ht, halign⟩, hpc, load_ofNat, hword, hi]
  rfl

theorem next_pc {s : State} {a : Nat} (hpc : s.pc = BitVec.ofNat 32 a) :
    s.pc + 4 = BitVec.ofNat 32 (a + 4) := by
  rw [hpc, BitVec.ofNat_add]
  rfl

/-- A load relative to the program counter. -/
theorem base_pc {s : State} {a : Nat} (hpc : s.pc = BitVec.ofNat 32 a) (ha : 4 ∣ a) :
    s.base 15 = BitVec.ofNat 32 (a + 8) := by
  have h8 : s.pc + 8 = BitVec.ofNat 32 (a + 8) := by
    rw [hpc, BitVec.ofNat_add]
    rfl
  have halign : BitVec.ofNat 32 (a + 8) &&& 3#32 = 0#32 := ofNat_and_three (by omega)
  simp only [State.base, State.read]
  rw [if_neg (by decide), dif_neg (by decide), h8]
  exact and_not_of_and_eq_zero halign

/-- `ldr r0, [pc, #d]` -/
theorem step_ldr_literal {s : State} {a v : Nat} (d : UInt8) {zs : List UInt8}
    (h : BytesAt (view s.mem) a ([d, 0x00, 0x9f, 0xe5] ++ zs)) (ht : s.thumb = false)
    (hpc : s.pc = BitVec.ofNat 32 a) (ha : 4 ∣ a)
    (hv : readWord (view s.mem) (a + 8 + d.toNat) 4 = v) :
    step s = some { s with
      reg := Function.update s.reg 0 (BitVec.ofNat 32 v), pc := s.pc + 4 } := by
  have hall : ∀ k < 256, decode (BitVec.ofNat 32 (ofBytes [UInt8.ofNat k, 0x00, 0x9f, 0xe5])) =
      some (.ldr 0 15 (BitVec.ofNat 32 k)) := by decide +kernel
  have hdecode := hall d.toNat d.toNat_lt
  rw [UInt8.ofNat_toNat] at hdecode
  rw [step_of_bytesAt h ht hpc ha hdecode, Instr.exec, base_pc hpc ha, ← BitVec.ofNat_add,
    load_ofNat, hv]
  rfl

/-- `ldr pc, [r0, #d]` -/
theorem step_ldr_pc {s : State} {a m : Nat} (d : UInt8) {zs : List UInt8}
    (h : BytesAt (view s.mem) a ([d, 0xf0, 0x90, 0xe5] ++ zs)) (ht : s.thumb = false)
    (hpc : s.pc = BitVec.ofNat 32 a) (ha : 4 ∣ a) (hm : s.reg 0 = BitVec.ofNat 32 m) :
    step s = some (s.branch (BitVec.ofNat 32 (readWord (view s.mem) (m + d.toNat) 4))) := by
  have hall : ∀ k < 256, decode (BitVec.ofNat 32 (ofBytes [UInt8.ofNat k, 0xf0, 0x90, 0xe5])) =
      some (.ldr 15 0 (BitVec.ofNat 32 k)) := by decide +kernel
  have hdecode := hall d.toNat d.toNat_lt
  rw [UInt8.ofNat_toNat] at hdecode
  have hbase : s.base 0 = BitVec.ofNat 32 m := hm
  rw [step_of_bytesAt h ht hpc ha hdecode, Instr.exec, hbase, ← BitVec.ofNat_add, load_ofNat]
  rfl

/-- The addresses a push writes to. -/
def State.Pushed (s : State) (x : Nat) : Prop := InSlot (s.reg sp - 4) 4 x

instance (s : State) (x : Nat) : Decidable (s.Pushed x) := inferInstanceAs (Decidable (InSlot _ _ _))

theorem view_push {s : State} {r : Fin 16} {x : Nat} (h : ¬ s.Pushed x) :
    view ((Instr.push r).exec s).mem x = view s.mem x :=
  view_store (by rwa [length_leBytes])

end A32
