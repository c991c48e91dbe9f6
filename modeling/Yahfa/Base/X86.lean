import Yahfa.Base.Machine

/-!
# Some instructions of x86

Moves of immediates, pushes and `ret`, in 32-bit and in 64-bit mode. The two
modes share registers, state and meaning of instructions, over the width `w` of
a register and the number `n` of registers, and differ in their decoders. None of
the instructions touches the flags.
-/

namespace X86

open Bytes Machine

variable {w n : Nat}

/-- The registers, the flags and the memory. -/
structure State (w n : Nat) where
  reg : Fin n → BitVec w
  ip : BitVec w
  flags : BitVec 32
  mem : Mem w

/-- The instructions, with operands of the width of a register. -/
inductive Instr (w n : Nat) where
  /-- `mov r, v` -/
  | movImm (r : Fin n) (v : BitVec w)
  /-- `push r` -/
  | pushReg (r : Fin n)
  /-- `push v` -/
  | pushImm (v : BitVec w)
  /-- `push [r + disp]` -/
  | pushMem (r : Fin n) (disp : BitVec w)
  | ret
deriving DecidableEq, Repr

/-! ## Meaning -/

variable [NeZero n]

/-- The number of the stack pointer. -/
def sp : Fin n := Fin.ofNat n 4

/-- Push a value. -/
def State.push (s : State w n) (v : Nat) : State w n :=
  let top := s.reg sp - BitVec.ofNat w (w / 8)
  { s with reg := Function.update s.reg sp top, mem := store s.mem top (leBytes (w / 8) v) }

/-- Go on behind an instruction of the given length. -/
def State.next (s : State w n) (len : Nat) : State w n := { s with ip := s.ip + BitVec.ofNat w len }

/-- Carry out an instruction of the given length. -/
def Instr.exec (s : State w n) (len : Nat) : Instr w n → State w n
  | .movImm r v => { s with reg := Function.update s.reg r v }.next len
  | .pushReg r => (s.push (s.reg r).toNat).next len
  | .pushImm v => (s.push v.toNat).next len
  | .pushMem r disp => (s.push (load s.mem (s.reg r + disp) (w / 8))).next len
  | .ret =>
      { s with
        reg := Function.update s.reg sp (s.reg sp + BitVec.ofNat w (w / 8))
        ip := BitVec.ofNat w (load s.mem (s.reg sp) (w / 8)) }

/-! ## Decoding -/

/-- The immediate of `len` bytes from byte `k` of an instruction on. -/
def imm (f : Nat → UInt8) (k len : Nat) : Nat := leValue len fun i => f (k + i)

/-- An 8-bit displacement. -/
def disp8 (w : Nat) (b : UInt8) : BitVec w := b.toBitVec.signExtend w

/-- `push [r + disp8]` is `ff /6` with `mod = 01`; the number 4 for `r` would mean
a further byte. -/
def isPushMem (modrm : UInt8) : Bool :=
  modrm >>> 6 == 1 && (modrm >>> 3) &&& 7 == 6 && modrm &&& 7 != 4

/-- The instruction at some bytes in 32-bit mode, and its length. -/
def decode32 (f : Nat → UInt8) : Option (Instr 32 8 × Nat) :=
  let r (b : UInt8) : Fin 8 := Fin.ofNat 8 b.toNat
  if f 0 &&& 0xf8 = 0xb8 then some (.movImm (r (f 0)) (BitVec.ofNat 32 (imm f 1 4)), 5)
  else if f 0 &&& 0xf8 = 0x50 then some (.pushReg (r (f 0)), 1)
  else if f 0 = 0x68 then some (.pushImm (BitVec.ofNat 32 (imm f 1 4)), 5)
  else if f 0 = 0xff ∧ isPushMem (f 1) then some (.pushMem (r (f 1)) (disp8 32 (f 2)), 3)
  else if f 0 = 0xc3 then some (.ret, 1)
  else none

/-- The instruction at some bytes in 64-bit mode, and its length. Only `mov` is
decoded with the prefix `REX.W`; pushes and `ret` have 64-bit operands anyway. -/
def decode64 (f : Nat → UInt8) : Option (Instr 64 16 × Nat) :=
  let r (b : UInt8) : Fin 16 := Fin.ofNat 16 (b.toNat % 8)
  if f 0 = 0x48 ∧ f 1 &&& 0xf8 = 0xb8 then
    some (.movImm (r (f 1)) (BitVec.ofNat 64 (imm f 2 8)), 10)
  else if f 0 &&& 0xf8 = 0x50 then some (.pushReg (r (f 0)), 1)
  else if f 0 = 0x68 then
    some (.pushImm ((BitVec.ofNat 32 (imm f 1 4)).signExtend 64), 5)
  else if f 0 = 0xff ∧ isPushMem (f 1) then some (.pushMem (r (f 1)) (disp8 64 (f 2)), 3)
  else if f 0 = 0xc3 then some (.ret, 1)
  else none

/-- The bytes at the instruction pointer. -/
def State.fetch (s : State w n) : Nat → UInt8 := fun i => s.mem (s.ip + BitVec.ofNat w i)

/-- One step in 32-bit mode. -/
def step32 (s : State 32 8) : Option (State 32 8) :=
  (decode32 s.fetch).map fun (i, len) => i.exec s len

/-- One step in 64-bit mode. -/
def step64 (s : State 64 16) : Option (State 64 16) :=
  (decode64 s.fetch).map fun (i, len) => i.exec s len

/-! ## Runs of instructions -/

omit [NeZero n] in
/-- The bytes from a natural address on. -/
theorem fetch_eq {s : State w n} {a : Nat} (hip : s.ip = BitVec.ofNat w a) (i : Nat) :
    s.fetch i = view s.mem (a + i) := by
  rw [State.fetch, view, hip, BitVec.ofNat_add]

omit [NeZero n] in
/-- The immediate of an instruction at a natural address. -/
theorem imm_fetch {s : State w n} {a : Nat} (hip : s.ip = BitVec.ofNat w a) (k len : Nat) :
    imm s.fetch k len = readWord (view s.mem) (a + k) len :=
  leValue_congr fun i _ => by rw [fetch_eq hip, Nat.add_assoc]

omit [NeZero n] in
/-- Going on behind an instruction at a natural address. -/
theorem next_ip {s : State w n} {a : Nat} (hip : s.ip = BitVec.ofNat w a) (len : Nat) :
    (s.next len).ip = BitVec.ofNat w (a + len) := by
  rw [State.next, hip, BitVec.ofNat_add]

/-- A displacement below 128 is not negative. -/
theorem disp8_of_lt {b : UInt8} (h : b.toNat < 128) :
    disp8 w b = BitVec.ofNat w b.toNat := by
  have hmsb : b.toBitVec.msb = false := by
    rw [BitVec.msb_eq_false_iff_two_mul_lt]
    have : b.toBitVec.toNat = b.toNat := rfl
    omega
  rw [disp8, BitVec.signExtend_eq_setWidth_of_msb_false hmsb]
  apply BitVec.eq_of_toNat_eq
  rw [BitVec.toNat_setWidth, BitVec.toNat_ofNat]
  rfl

/-- The addresses a push writes to. -/
def State.Pushed (s : State w n) (x : Nat) : Prop :=
  InSlot (s.reg sp - BitVec.ofNat w (w / 8)) (w / 8) x

instance (s : State w n) (x : Nat) : Decidable (s.Pushed x) :=
  inferInstanceAs (Decidable (InSlot _ _ _))

theorem view_push {s : State w n} {v x : Nat} (h : ¬ s.Pushed x) :
    view (s.push v).mem x = view s.mem x :=
  view_store (by rwa [length_leBytes])

/-- The second state differs from the first in one register and the instruction
pointer at most. -/
structure SameBut (r : Fin n) (s t : State w n) : Prop where
  mem : t.mem = s.mem
  others : ∀ q, q ≠ r → t.reg q = s.reg q
  flags : t.flags = s.flags

section SameBut

variable {r : Fin n} {s t : State w n}

omit [NeZero n] in
theorem SameBut.refl (r : Fin n) (s : State w n) : SameBut r s s := ⟨rfl, fun _ _ => rfl, rfl⟩

theorem SameBut.movImm (h : SameBut r s t) (v : BitVec w) (len : Nat) :
    SameBut r s ((Instr.movImm r v).exec t len) := by
  refine ⟨h.mem, fun q hq => ?_, h.flags⟩
  simp only [Instr.exec, State.next]
  rw [Function.update_of_ne hq, h.others q hq]

theorem SameBut.push (h : SameBut r s t) (hr : r ≠ sp) (v len : Nat) :
    SameBut r (s.push v) ((t.push v).next len) := by
  have hsp : t.reg sp = s.reg sp := h.others sp hr.symm
  refine ⟨?_, fun q hq => ?_, h.flags⟩
  · simp only [State.next, State.push, hsp, h.mem]
  · simp only [State.next, State.push, hsp]
    by_cases hq' : q = sp
    · subst hq'
      rw [Function.update_self, Function.update_self]
    · rw [Function.update_of_ne hq', Function.update_of_ne hq', h.others q hq]

/-! The value a push of either kind pushes. -/

theorem SameBut.pushImm (h : SameBut r s t) (hr : r ≠ sp) {v : Nat} (hv : v < 2 ^ w) (len : Nat) :
    SameBut r (s.push v) ((Instr.pushImm (BitVec.ofNat w v)).exec t len) := by
  have hvalue : (BitVec.ofNat w v).toNat = v := Nat.mod_eq_of_lt hv
  rw [Instr.exec, hvalue]
  exact h.push hr v len

theorem SameBut.pushReg (h : SameBut r s t) (hr : r ≠ sp) {q : Fin n} {v : Nat} (hv : v < 2 ^ w)
    (hq : t.reg q = BitVec.ofNat w v) (len : Nat) :
    SameBut r (s.push v) ((Instr.pushReg q).exec t len) := by
  have hvalue : (t.reg q).toNat = v := hq ▸ Nat.mod_eq_of_lt hv
  rw [Instr.exec, hvalue]
  exact h.push hr v len

theorem SameBut.pushMem (h : SameBut r s t) (hr : r ≠ sp) {q : Fin n} {m d : Nat}
    (hq : t.reg q = BitVec.ofNat w m) (len : Nat) :
    SameBut r (s.push (readWord (view s.mem) (m + d) (w / 8)))
      ((Instr.pushMem q (BitVec.ofNat w d)).exec t len) := by
  -- the word is loaded before anything is written
  have hvalue : load t.mem (t.reg q + BitVec.ofNat w d) (w / 8) =
      readWord (view s.mem) (m + d) (w / 8) := by
    rw [hq, ← BitVec.ofNat_add, load_ofNat, h.mem]
  rw [Instr.exec, hvalue]
  exact h.push hr _ len

/-- A push leaves a block alone that it does not write to. -/
theorem SameBut.bytesAt {v a : Nat} {bs : List UInt8} (h : SameBut r (s.push v) t)
    (hbs : BytesAt (view s.mem) a bs) (hslot : ∀ i < bs.length, ¬ s.Pushed (a + i)) :
    BytesAt (view t.mem) a bs := by
  refine hbs.congr fun i hi => ?_
  rw [h.mem]
  exact view_push (hslot i hi)

end SameBut

/-- A value that has been pushed is where `ret` goes on, and the stack pointer is
then what it was before the push. -/
theorem exec_ret_of_push {s t : State w n} {r : Fin n} {v : Nat} (hr : r ≠ sp)
    (hv : v < 256 ^ (w / 8)) (h : SameBut r (s.push v) t) :
    Instr.ret.exec t 1 =
      { t with reg := Function.update t.reg sp (s.reg sp), ip := BitVec.ofNat w v } := by
  have hw : w / 8 ≤ 2 ^ w := (Nat.div_le_self w 8).trans Nat.lt_two_pow_self.le
  have htop : t.reg sp = s.reg sp - BitVec.ofNat w (w / 8) := by
    rw [h.others sp hr.symm]
    simp [State.push]
  have hload : load t.mem (t.reg sp) (w / 8) = v := by
    rw [h.mem, htop, State.push, load_store hw, Nat.mod_eq_of_lt hv]
  rw [Instr.exec, hload, htop, BitVec.sub_add_cancel]

/-! ## Decoding the first bytes, one instruction at a time -/

section Decode

variable {f : Nat → UInt8}

theorem decode32_movImm {r : Fin 8} (h : f 0 = 0xb8 + UInt8.ofNat r) :
    decode32 f = some (.movImm r (BitVec.ofNat 32 (imm f 1 4)), 5) := by
  rw [decode32, h]
  revert r
  simp only [Fin.forall_fin_succ]
  exact ⟨fun _ => rfl, fun _ => rfl, fun _ => rfl, fun _ => rfl, fun _ => rfl, fun _ => rfl,
    fun _ => rfl, fun _ => rfl, by simp⟩

theorem decode32_pushImm (h : f 0 = 0x68) :
    decode32 f = some (.pushImm (BitVec.ofNat 32 (imm f 1 4)), 5) := by
  rw [decode32, h]
  rfl

/-- `push [eax + disp]` -/
theorem decode32_pushMem (h0 : f 0 = 0xff) (h1 : f 1 = 0x70) :
    decode32 f = some (.pushMem 0 (disp8 32 (f 2)), 3) := by
  rw [decode32, h0, h1]
  rfl

theorem decode32_ret (h : f 0 = 0xc3) : decode32 f = some (.ret, 1) := by
  rw [decode32, h]
  rfl

/-- `mov rdi, v` -/
theorem decode64_movImm (h0 : f 0 = 0x48) (h1 : f 1 = 0xbf) :
    decode64 f = some (.movImm 7 (BitVec.ofNat 64 (imm f 2 8)), 10) := by
  rw [decode64, h0, h1]
  rfl

/-- `push rdi` -/
theorem decode64_pushReg (h : f 0 = 0x57) : decode64 f = some (.pushReg 7, 1) := by
  rw [decode64, h]
  rfl

/-- `push [rdi + disp]` -/
theorem decode64_pushMem (h0 : f 0 = 0xff) (h1 : f 1 = 0x77) :
    decode64 f = some (.pushMem 7 (disp8 64 (f 2)), 3) := by
  rw [decode64, h0, h1]
  rfl

theorem decode64_ret (h : f 0 = 0xc3) : decode64 f = some (.ret, 1) := by
  rw [decode64, h]
  rfl

theorem step32_of_decode {s : State 32 8} {i : Instr 32 8} {len : Nat}
    (h : decode32 s.fetch = some (i, len)) : step32 s = some (i.exec s len) := by
  rw [step32, h]
  rfl

theorem step64_of_decode {s : State 64 16} {i : Instr 64 16} {len : Nat}
    (h : decode64 s.fetch = some (i, len)) : step64 s = some (i.exec s len) := by
  rw [step64, h]
  rfl

end Decode

end X86
