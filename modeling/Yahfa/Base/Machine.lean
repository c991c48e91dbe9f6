import Yahfa.Base.Bytes
import Mathlib.Logic.Function.Basic
import Mathlib.Logic.Relation

/-!
# Memory of a machine, and its runs

A machine with `w`-bit addresses sees a memory that wraps around. `view` is the
same memory at natural addresses, so that what is known of a block of bytes can
be used for loads (`load_ofNat`). A word loaded from where it was stored is
the word (`load_store`), and a store changes no other byte (`store_of_ne`).
-/

namespace Machine

open Bytes

variable {w : Nat}

/-! The numbers of registers the machines have are not zero. -/

instance neZero_eight : NeZero 8 := ⟨by decide⟩

instance neZero_fifteen : NeZero 15 := ⟨by decide⟩

instance neZero_sixteen : NeZero 16 := ⟨by decide⟩

/-- The memory a machine sees. -/
abbrev Mem (w : Nat) := BitVec w → UInt8

/-- The memory at natural addresses. -/
def view (mem : Mem w) : Memory := fun x => mem (BitVec.ofNat w x)

/-- Load a little-endian word of `n` bytes. -/
def load (mem : Mem w) (a : BitVec w) (n : Nat) : Nat :=
  leValue n fun i => mem (a + BitVec.ofNat w i)

/-- Store some bytes. -/
def store (mem : Mem w) (a : BitVec w) : List UInt8 → Mem w
  | [] => mem
  | b :: bs => store (Function.update mem a b) (a + 1) bs

/-- A store changes its own bytes only. -/
theorem store_of_ne {mem : Mem w} {a x : BitVec w} {bs : List UInt8}
    (h : ∀ i < bs.length, x ≠ a + BitVec.ofNat w i) : store mem a bs x = mem x := by
  induction bs generalizing mem a with
  | nil => rfl
  | cons b bs ih =>
      have hne : x ≠ a := by simpa using h 0 (by simp)
      rw [store, ih, Function.update_of_ne hne]
      intro i hi
      have hstep := h (i + 1) (by simpa using hi)
      rwa [BitVec.ofNat_add, BitVec.add_comm (BitVec.ofNat w i), ← BitVec.add_assoc] at hstep

/-- The bytes of a store are in memory after it, if they do not wrap onto
themselves. -/
theorem store_apply {mem : Mem w} {a : BitVec w} {bs : List UInt8} (hlen : bs.length ≤ 2 ^ w)
    {i : Nat} (hi : i < bs.length) : store mem a bs (a + BitVec.ofNat w i) = bs[i] := by
  induction bs generalizing mem a i with
  | nil => simp at hi
  | cons b bs ih =>
      simp only [List.length_cons] at hlen hi
      rw [store]
      cases i with
      | zero =>
          -- the later bytes land elsewhere
          have hne : ∀ j < bs.length, a + BitVec.ofNat w 0 ≠ a + 1 + BitVec.ofNat w j := by
            intro j hj heq
            have hcancel : BitVec.ofNat w 0 = BitVec.ofNat w (1 + j) := by
              rw [BitVec.add_assoc] at heq
              rw [BitVec.ofNat_add]
              exact (BitVec.add_right_inj a).mp heq
            have hnat := congrArg BitVec.toNat hcancel
            rw [BitVec.toNat_ofNat, BitVec.toNat_ofNat, Nat.zero_mod,
              Nat.mod_eq_of_lt (by omega)] at hnat
            omega
          rw [store_of_ne hne]
          simp
      | succ i =>
          have hrest : store (Function.update mem a b) (a + 1) bs (a + 1 + BitVec.ofNat w i) =
              bs[i] := ih (by omega) (by omega)
          rw [BitVec.ofNat_add, BitVec.add_comm (BitVec.ofNat w i), ← BitVec.add_assoc]
          simpa using hrest

theorem load_store {mem : Mem w} {a : BitVec w} {n v : Nat} (hn : n ≤ 2 ^ w) :
    load (store mem a (leBytes n v)) a n = v % 256 ^ n :=
  leValue_leBytes n v _ fun _ hi => store_apply (by simpa using hn) hi

theorem load_ofNat (mem : Mem w) (a n : Nat) :
    load mem (BitVec.ofNat w a) n = readWord (view mem) a n :=
  leValue_congr fun i _ => by rw [view, BitVec.ofNat_add]

/-- The natural address names one of the `n` bytes from `a` on. -/
def InSlot (a : BitVec w) (n x : Nat) : Prop := ∃ i < n, BitVec.ofNat w x = a + BitVec.ofNat w i

instance (a : BitVec w) (n x : Nat) : Decidable (InSlot a n x) :=
  inferInstanceAs (Decidable (∃ i < n, BitVec.ofNat w x = a + BitVec.ofNat w i))

theorem view_store {mem : Mem w} {a : BitVec w} {bs : List UInt8} {x : Nat}
    (h : ¬ InSlot a bs.length x) : view (store mem a bs) x = view mem x :=
  store_of_ne fun i hi heq => h ⟨i, hi, heq⟩

/-- A multiple of 4 has its two low bits clear. -/
theorem ofNat_and_three {a : Nat} (ha : 4 ∣ a) :
    BitVec.ofNat w a &&& BitVec.ofNat w 3 = 0#w := by
  rcases ha with ⟨k, rfl⟩
  apply BitVec.eq_of_getLsbD_eq
  intro i hi
  have h3 : (3 : Nat).testBit i = decide (i < 2) := Nat.testBit_two_pow_sub_one 2 i
  rw [BitVec.getLsbD_and, BitVec.getLsbD_ofNat, BitVec.getLsbD_ofNat, BitVec.getLsbD_zero, h3]
  by_cases h2 : i < 2
  · have hbit : (4 * k).testBit i = false := by
      rw [show 4 * k = 2 ^ 2 * k from rfl, Nat.testBit_two_pow_mul]
      simp [h2]
    rw [hbit, Bool.and_false, Bool.false_and]
  · simp [h2]

/-- Clearing bits that are clear changes nothing. -/
theorem and_not_of_and_eq_zero {x m : BitVec w} (h : x &&& m = 0#w) : x &&& ~~~m = x := by
  apply BitVec.eq_of_getLsbD_eq
  intro i hi
  have hbit := congrArg (fun v : BitVec w => v.getLsbD i) h
  simp only [BitVec.getLsbD_and, BitVec.getLsbD_zero] at hbit
  rw [BitVec.getLsbD_and, BitVec.getLsbD_not]
  cases hx : x.getLsbD i <;> simp_all

/-! ## Runs -/

/-- One state leads to another in some steps. -/
def Steps {σ : Type} (step : σ → Option σ) : σ → σ → Prop :=
  Relation.ReflTransGen fun s s' => step s = some s'

section Steps

variable {σ : Type} {step : σ → Option σ} {s t u : σ}

theorem Steps.refl : Steps step s s := Relation.ReflTransGen.refl

theorem Steps.tail (h : Steps step s t) (hstep : step t = some u) : Steps step s u :=
  Relation.ReflTransGen.tail h hstep

end Steps

end Machine
