import Yahfa.Base.Bytes

/-!
# `common.h`: pointers, rounding and memory access

The four ABIs the library is built for differ in the size of a pointer and in
the trampoline templates. Addresses are natural numbers; a pointer stored in
memory takes `pointerSize` little-endian bytes.
-/

namespace Yahfa

open Bytes

/-- The ABIs of `trampoline.c`. -/
inductive Abi where
  | i386
  | x86_64
  | arm
  | aarch64
deriving DecidableEq, Repr

/-- `pointer_size`, that is `sizeof(void*)`. -/
def pointerSize : Abi → Nat
  | .i386 => 4
  | .x86_64 => 8
  | .arm => 4
  | .aarch64 => 8

/-- The number of addresses of the ABI. -/
def addressSpace (abi : Abi) : Nat := 256 ^ pointerSize abi

/-- The address `offset` bytes behind another one, as pointers wrap around. -/
def addrAdd (abi : Abi) (addr offset : Nat) : Nat := (addr + offset) % addressSpace abi

/-- `roundUpToPtrSize`. -/
def roundUpToPtrSize (abi : Abi) (v : Nat) : Nat :=
  v + pointerSize abi - 1 - ((v + pointerSize abi - 1) &&& (pointerSize abi - 1))

/-- The null pointer. -/
abbrev NULL : Nat := 0

/-- `read32`. -/
def read32 (mem : Memory) (addr : Nat) : BitVec 32 := BitVec.ofNat 32 (readWord mem addr 4)

/-- `write32`. -/
def write32 (mem : Memory) (addr : Nat) (value : BitVec 32) : Memory :=
  writeWord mem addr 4 value.toNat

/-- `readAddr`. -/
def readAddr (abi : Abi) (mem : Memory) (addr : Nat) : Nat := readWord mem addr (pointerSize abi)

/-- `writeAddr`. -/
def writeAddr (abi : Abi) (mem : Memory) (addr value : Nat) : Memory :=
  writeWord mem addr (pointerSize abi) value

theorem pointerSize_cases (abi : Abi) : pointerSize abi = 4 ∨ pointerSize abi = 8 := by
  cases abi <;> decide

theorem readAddr_lt (abi : Abi) (mem : Memory) (addr : Nat) :
    readAddr abi mem addr < addressSpace abi := readWord_lt _ _ _

theorem read32_write32 (mem : Memory) (addr : Nat) (value : BitVec 32) :
    read32 (write32 mem addr value) addr = value := by
  rw [read32, write32, readWord_writeWord_of_lt value.isLt]
  simp

/-! ## Android API levels -/

def androidApiL : Int := 21
def androidApiLMr1 : Int := 22
def androidApiM : Int := 23
def androidApiN : Int := 24
def androidApiNMr1 : Int := 25
def androidApiO : Int := 26
def androidApiOMr1 : Int := 27
def androidApiP : Int := 28
def androidApiQ : Int := 29
def androidApiR : Int := 30
def androidApiS : Int := 31
def androidApiSL : Int := 32
def androidApiT : Int := 33

end Yahfa
