import Yahfa.Base.Machine

/-!
# Some instructions of A64

A pc-relative load, a load with an unscaled offset and a branch to a register,
in the 64-bit ARM instruction set.
-/

namespace A64

open Bytes Machine

/-- The registers, the flags and the memory. -/
structure State where
  /-- `x0` to `x30`. -/
  reg : Fin 31 → BitVec 64
  sp : BitVec 64
  pc : BitVec 64
  nzcv : BitVec 4
  mem : Mem 64

/-- The instructions; register 31 is the zero register, or as a base the stack
pointer. -/
inductive Instr where
  /-- `ldr xt, pc + offset` -/
  | ldrLiteral (rt : Fin 32) (offset : BitVec 64)
  /-- `ldur xt, [xn, #offset]` -/
  | ldur (rt rn : Fin 32) (offset : BitVec 64)
  /-- `br xn` -/
  | br (rn : Fin 32)
deriving DecidableEq, Repr

/-! ## Meaning -/

/-- Read a register. -/
def State.read (s : State) (r : Fin 32) : BitVec 64 := if h : r.val < 31 then s.reg ⟨r, h⟩ else 0

/-- Read a base register. -/
def State.base (s : State) (r : Fin 32) : BitVec 64 :=
  if h : r.val < 31 then s.reg ⟨r, h⟩ else s.sp

/-- Load a register and go on. -/
def State.loadReg (s : State) (r : Fin 32) (v : BitVec 64) : State :=
  if h : r.val < 31 then { s with reg := Function.update s.reg ⟨r, h⟩ v, pc := s.pc + 4 }
  else { s with pc := s.pc + 4 }

/-- Carry out an instruction. -/
def Instr.exec (s : State) : Instr → State
  | .ldrLiteral rt offset => s.loadReg rt (BitVec.ofNat 64 (load s.mem (s.pc + offset) 8))
  | .ldur rt rn offset => s.loadReg rt (BitVec.ofNat 64 (load s.mem (s.base rn + offset) 8))
  | .br rn => { s with pc := s.read rn }

/-! ## Decoding -/

/-- The instruction a word stands for. -/
def decode (word : BitVec 32) : Option Instr :=
  let field (k : Nat) : Fin 32 := Fin.ofNat 32 (word.extractLsb' k 5).toNat
  if word.extractLsb' 24 8 = 0x58#8 then
    some (.ldrLiteral (field 0) ((word.extractLsb' 5 19).signExtend 64 <<< 2))
  else if word.extractLsb' 21 11 = 0x7c2#11 ∧ word.extractLsb' 10 2 = 0#2 then
    some (.ldur (field 0) (field 5) ((word.extractLsb' 12 9).signExtend 64))
  else if word.extractLsb' 10 22 = 0x3587c0#22 ∧ word.extractLsb' 0 5 = 0#5 then
    some (.br (field 5))
  else none

/-- One step. -/
def step (s : State) : Option State :=
  if s.pc &&& 3 = 0 then (decode (BitVec.ofNat 32 (load s.mem s.pc 4))).map fun i => i.exec s
  else none

/-- A step on an instruction in memory. -/
theorem step_of_bytesAt {s : State} {a : Nat} {b₀ b₁ b₂ b₃ : UInt8} {zs : List UInt8} {i : Instr}
    (h : BytesAt (view s.mem) a ([b₀, b₁, b₂, b₃] ++ zs)) (hpc : s.pc = BitVec.ofNat 64 a)
    (ha : 4 ∣ a) (hi : decode (BitVec.ofNat 32 (ofBytes [b₀, b₁, b₂, b₃])) = some i) :
    step s = some (i.exec s) := by
  have halign : s.pc &&& 3 = 0 := by
    rw [hpc]
    exact ofNat_and_three ha
  have hword : readWord (view s.mem) a 4 = ofBytes [b₀, b₁, b₂, b₃] := h.readWord
  rw [step, if_pos halign, hpc, load_ofNat, hword, hi]
  rfl

theorem next_pc {s : State} {a : Nat} (hpc : s.pc = BitVec.ofNat 64 a) :
    s.pc + 4 = BitVec.ofNat 64 (a + 4) := by
  rw [hpc, BitVec.ofNat_add]
  rfl

/-- `ldr xt, pc + k`, from its decoding -/
theorem step_ldr_literal {s : State} {a v k : Nat} {b₀ b₁ b₂ b₃ : UInt8} {zs : List UInt8}
    (r : Fin 31) (h : BytesAt (view s.mem) a ([b₀, b₁, b₂, b₃] ++ zs))
    (hpc : s.pc = BitVec.ofNat 64 a) (ha : 4 ∣ a)
    (hi : decode (BitVec.ofNat 32 (ofBytes [b₀, b₁, b₂, b₃])) =
      some (.ldrLiteral r.castSucc (BitVec.ofNat 64 k)))
    (hv : readWord (view s.mem) (a + k) 8 = v) :
    step s = some { s with
      reg := Function.update s.reg r (BitVec.ofNat 64 v), pc := s.pc + 4 } := by
  have hload : load s.mem (s.pc + BitVec.ofNat 64 k) 8 = v := by
    rw [hpc, ← BitVec.ofNat_add, load_ofNat, hv]
  have hr : r.castSucc.val < 31 := r.isLt
  rw [step_of_bytesAt h hpc ha hi, Instr.exec, hload, State.loadReg, dif_pos hr]
  rfl

/-- `ldr x16, [x0, #d]`, whose offset is split over two bytes -/
theorem step_ldr_x16 {s : State} {a m : Nat} (d : UInt8) {zs : List UInt8}
    (h : BytesAt (view s.mem) a
      (([0x10, (0x00 : UInt8) ||| d <<< 4, (0x40 : UInt8) ||| d >>> 4, 0xf8] : List UInt8) ++ zs))
    (hpc : s.pc = BitVec.ofNat 64 a) (ha : 4 ∣ a) (hm : s.reg 0 = BitVec.ofNat 64 m) :
    step s = some { s with
      reg := Function.update s.reg 16
        (BitVec.ofNat 64 (readWord (view s.mem) (m + d.toNat) 8))
      pc := s.pc + 4 } := by
  have hall : ∀ k < 256, decode (BitVec.ofNat 32 (ofBytes
      [0x10, (0x00 : UInt8) ||| UInt8.ofNat k <<< 4, (0x40 : UInt8) ||| UInt8.ofNat k >>> 4,
        0xf8])) = some (.ldur 16 0 (BitVec.ofNat 64 k)) := by decide +kernel
  have hdecode := hall d.toNat d.toNat_lt
  rw [UInt8.ofNat_toNat] at hdecode
  have hbase : s.base 0 = BitVec.ofNat 64 m := hm
  rw [step_of_bytesAt h hpc ha hdecode, Instr.exec, hbase, ← BitVec.ofNat_add, load_ofNat]
  rfl

/-- `br x16` -/
theorem step_br_x16 {s : State} {a : Nat} {zs : List UInt8}
    (h : BytesAt (view s.mem) a ([0x00, 0x02, 0x1f, 0xd6] ++ zs))
    (hpc : s.pc = BitVec.ofNat 64 a) (ha : 4 ∣ a) :
    step s = some { s with pc := s.reg 16 } :=
  step_of_bytesAt h hpc ha (i := .br 16) (by decide)

end A64
