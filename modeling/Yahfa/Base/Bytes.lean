import Mathlib.Data.List.Basic
import Mathlib.Algebra.Order.Ring.Nat
import Mathlib.Tactic.Ring

/-!
# Byte memories and little-endian words

A byte memory is a total function from addresses to bytes; a word is stored
least significant byte first. The three facts everything else is built from:

* a write changes the bytes of its own span and no others
  (`write_of_disjoint`, `write_apply_add`);
* a word read back from where it was written is the word, cut to its width
  (`readWord_writeWord`);
* a read depends only on the bytes of its own span (`readWord_congr`).
-/

namespace Bytes

/-! ## Spans -/

/-- A half-open range of addresses `[base, base + len)`. -/
structure Span where
  base : Nat
  len : Nat
deriving DecidableEq, Repr

namespace Span

/-- The address lies in the span. -/
def Contains (s : Span) (a : Nat) : Prop := s.base ≤ a ∧ a < s.base + s.len

/-- `s` lies inside `t`. -/
def Within (s t : Span) : Prop := t.base ≤ s.base ∧ s.base + s.len ≤ t.base + t.len

/-- One of the spans ends before the other begins. -/
def Apart (s t : Span) : Prop := s.base + s.len ≤ t.base ∨ t.base + t.len ≤ s.base

instance (s : Span) (a : Nat) : Decidable (s.Contains a) := inferInstanceAs (Decidable (_ ∧ _))
instance (s t : Span) : Decidable (s.Within t) := inferInstanceAs (Decidable (_ ∧ _))
instance (s t : Span) : Decidable (s.Apart t) := inferInstanceAs (Decidable (_ ∨ _))

theorem Apart.symm {s t : Span} (h : s.Apart t) : t.Apart s := Or.symm h

theorem Within.trans {s t u : Span} (h₁ : s.Within t) (h₂ : t.Within u) : s.Within u :=
  ⟨h₂.1.trans h₁.1, h₁.2.trans h₂.2⟩

/-- Spans inside two spans that lie apart lie apart. -/
theorem Apart.of_within {s t s' t' : Span} (h : s.Apart t) (hs : s'.Within s)
    (ht : t'.Within t) : s'.Apart t' := by
  simp only [Apart, Within] at *
  omega

/-- An address of the first of two spans that lie apart is not in the second. -/
theorem Apart.not_contains {s t : Span} (h : s.Apart t) {a : Nat} (ha : s.Contains a) :
    ¬ t.Contains a := by
  simp only [Apart, Contains] at *
  omega

theorem Within.contains {s t : Span} (h : s.Within t) {a : Nat} (ha : s.Contains a) :
    t.Contains a := by
  simp only [Within, Contains] at *
  omega

end Span

/-! ## Little-endian words -/

/-- The number whose `n` little-endian bytes are `f 0, …, f (n - 1)`. -/
def leValue : Nat → (Nat → UInt8) → Nat
  | 0, _ => 0
  | n + 1, f => (f 0).toNat + 256 * leValue n (fun i => f (i + 1))

/-- The `n` little-endian bytes of `v`. -/
def leBytes : Nat → Nat → List UInt8
  | 0, _ => []
  | n + 1, v => UInt8.ofNat v :: leBytes n (v / 256)

@[simp] theorem length_leBytes (n v : Nat) : (leBytes n v).length = n := by
  induction n generalizing v with
  | zero => rfl
  | succ n ih => simp [leBytes, ih]

theorem leValue_lt (n : Nat) (f : Nat → UInt8) : leValue n f < 256 ^ n := by
  induction n generalizing f with
  | zero => simp [leValue]
  | succ n ih =>
      have h0 : (f 0).toNat < 256 := (f 0).toNat_lt
      have hrest := ih (fun i => f (i + 1))
      rw [leValue, pow_succ]
      omega

theorem leValue_congr {n : Nat} {f g : Nat → UInt8} (h : ∀ i < n, f i = g i) :
    leValue n f = leValue n g := by
  induction n generalizing f g with
  | zero => rfl
  | succ n ih =>
      have hrest : leValue n (fun i => f (i + 1)) = leValue n (fun i => g (i + 1)) :=
        ih fun i hi => h (i + 1) (by omega)
      rw [leValue, leValue, h 0 (by omega), hrest]

theorem leValue_eq_zero {n : Nat} {f : Nat → UInt8} (h : leValue n f = 0) :
    ∀ i < n, f i = 0 := by
  induction n generalizing f with
  | zero => simp
  | succ n ih =>
      intro i hi
      rw [leValue] at h
      cases i with
      | zero => exact UInt8.toNat_inj.mp (by simpa using (Nat.add_eq_zero_iff.mp h).1)
      | succ i => exact ih (f := fun i => f (i + 1)) (by omega) i (by omega)

/-- The bytes of a number spell the number, cut to the width. -/
theorem leValue_leBytes (n v : Nat) (f : Nat → UInt8)
    (h : ∀ i (hi : i < (leBytes n v).length), f i = (leBytes n v)[i]) :
    leValue n f = v % 256 ^ n := by
  induction n generalizing v f with
  | zero => simp [leValue, Nat.mod_one]
  | succ n ih =>
      have hhead : f 0 = UInt8.ofNat v := h 0 (by simp)
      have htail : leValue n (fun i => f (i + 1)) = v / 256 % 256 ^ n := by
        refine ih (v / 256) _ fun i hi => ?_
        have := h (i + 1) (by simp at hi ⊢; omega)
        simpa [leBytes] using this
      rw [leValue, hhead, htail, pow_succ', Nat.mod_mul]
      simp

/-- The number spelled by some bytes has these bytes. -/
theorem getElem_leBytes_leValue (n : Nat) (f : Nat → UInt8) (i : Nat)
    (hi : i < (leBytes n (leValue n f)).length) : (leBytes n (leValue n f))[i] = f i := by
  induction n generalizing f i with
  | zero => simp [leBytes] at hi
  | succ n ih =>
      have hdiv : leValue (n + 1) f / 256 = leValue n (fun i => f (i + 1)) := by
        have h0 : (f 0).toNat < 256 := (f 0).toNat_lt
        rw [leValue]
        omega
      cases i with
      | zero => simp [leBytes, leValue, UInt8.ofNat_add, UInt8.ofNat_mul]
      | succ i =>
          simpa [leBytes, hdiv] using
            ih (fun i => f (i + 1)) i (by simpa [leBytes, hdiv] using hi)

/-! ## Memories -/

/-- A byte memory. -/
abbrev Memory := Nat → UInt8

/-- Write a block of bytes at an address. -/
def write (mem : Memory) (a : Nat) (bs : List UInt8) : Memory :=
  fun x => if a ≤ x then (bs[x - a]?).getD (mem x) else mem x

theorem write_of_disjoint {mem : Memory} {a : Nat} {bs : List UInt8} {x : Nat}
    (h : ¬ (Span.mk a bs.length).Contains x) : write mem a bs x = mem x := by
  simp only [Span.Contains, not_and, not_lt] at h
  rw [write]
  split
  · next hle =>
    rw [List.getElem?_eq_none (by have := h hle; omega), Option.getD_none]
  · rfl

theorem write_apply_add {mem : Memory} {a : Nat} {bs : List UInt8} {i : Nat}
    (h : i < bs.length) : write mem a bs (a + i) = bs[i] := by
  simp [write, List.getElem?_eq_getElem h]

/-- The little-endian word of `n` bytes at an address. -/
def readWord (mem : Memory) (a n : Nat) : Nat := leValue n (fun i => mem (a + i))

/-- Store a little-endian word of `n` bytes at an address. -/
def writeWord (mem : Memory) (a n v : Nat) : Memory := write mem a (leBytes n v)

theorem readWord_lt (mem : Memory) (a n : Nat) : readWord mem a n < 256 ^ n :=
  leValue_lt n _

theorem readWord_congr {mem mem' : Memory} {a n : Nat}
    (h : ∀ x, (Span.mk a n).Contains x → mem x = mem' x) :
    readWord mem a n = readWord mem' a n :=
  leValue_congr fun i hi => h (a + i) ⟨by simp, by simp; omega⟩

/-- A null word starts with null words of every smaller width. -/
theorem readWord_eq_zero_of_le {mem : Memory} {a m n : Nat} (h : readWord mem a n = 0)
    (hmn : m ≤ n) : readWord mem a m = 0 := by
  have hbytes := leValue_eq_zero h
  have hconst : readWord mem a m = leValue m fun _ => 0 :=
    leValue_congr fun i hi => hbytes i (lt_of_lt_of_le hi hmn)
  rw [hconst]
  clear hconst hbytes h hmn
  induction m with
  | zero => rfl
  | succ m ih => simp [leValue, ih]

theorem writeWord_of_disjoint {mem : Memory} {a n v x : Nat}
    (h : ¬ (Span.mk a n).Contains x) : writeWord mem a n v x = mem x :=
  write_of_disjoint (by simpa using h)

theorem readWord_writeWord (mem : Memory) (a n v : Nat) :
    readWord (writeWord mem a n v) a n = v % 256 ^ n :=
  leValue_leBytes n v _ fun _ hi => write_apply_add hi

theorem readWord_writeWord_of_lt {mem : Memory} {a n v : Nat} (h : v < 256 ^ n) :
    readWord (writeWord mem a n v) a n = v := by
  rw [readWord_writeWord, Nat.mod_eq_of_lt h]

/-- Storing the word that is there changes nothing. -/
theorem writeWord_readWord (mem : Memory) (a n : Nat) :
    writeWord mem a n (readWord mem a n) = mem := by
  funext x
  by_cases hx : (Span.mk a n).Contains x
  · rcases Nat.exists_eq_add_of_le hx.1 with ⟨i, rfl⟩
    have hi : i < (leBytes n (readWord mem a n)).length := by
      simp only [Span.Contains] at hx
      simp
      omega
    rw [writeWord, write_apply_add hi]
    exact getElem_leBytes_leValue n (fun i => mem (a + i)) i hi
  · exact writeWord_of_disjoint hx

theorem readWord_write_of_apart {mem : Memory} {a b n : Nat} {bs : List UInt8}
    (h : (Span.mk a n).Apart (Span.mk b bs.length)) :
    readWord (write mem b bs) a n = readWord mem a n :=
  readWord_congr fun _ hx => write_of_disjoint (h.not_contains hx)

theorem readWord_writeWord_of_apart {mem : Memory} {a b n m v : Nat}
    (h : (Span.mk a n).Apart (Span.mk b m)) :
    readWord (writeWord mem b m v) a n = readWord mem a n :=
  readWord_write_of_apart (by simpa using h)

/-! ## Blocks of bytes in memory -/

/-- The bytes are in memory from the address on. -/
def BytesAt (mem : Memory) (a : Nat) (bs : List UInt8) : Prop :=
  ∀ i (hi : i < bs.length), mem (a + i) = bs[i]

instance (mem : Memory) (a : Nat) (bs : List UInt8) : Decidable (BytesAt mem a bs) :=
  inferInstanceAs (Decidable (∀ i (hi : i < bs.length), mem (a + i) = bs[i]))

theorem bytesAt_write (mem : Memory) (a : Nat) (bs : List UInt8) : BytesAt (write mem a bs) a bs :=
  fun _ hi => write_apply_add hi

/-- Overwriting the middle of a block. -/
theorem BytesAt.patch {mem : Memory} {a b : Nat} {xs ys ys' zs : List UInt8}
    (h : BytesAt mem a (xs ++ ys ++ zs)) (hb : b = a + xs.length) (hlen : ys'.length = ys.length) :
    BytesAt (write mem b ys') a (xs ++ ys' ++ zs) := by
  subst hb
  intro i hi
  simp only [List.length_append] at hi
  by_cases hx : i < xs.length
  · rw [write_of_disjoint (by simp only [Span.Contains]; omega),
      h i (by simp only [List.length_append]; omega)]
    simp [hx]
  · rcases Nat.exists_eq_add_of_le (not_lt.mp hx) with ⟨j, rfl⟩
    by_cases hy : j < ys'.length
    · rw [← Nat.add_assoc, write_apply_add hy]
      simp [hy]
    · rw [write_of_disjoint (by simp only [Span.Contains]; omega),
        h _ (by simp only [List.length_append]; omega)]
      simp [List.getElem_append, hlen ▸ hy, hlen]

/-- The number some little-endian bytes spell. -/
def ofBytes (bs : List UInt8) : Nat := leValue bs.length fun i => bs.getD i 0

/-- The word at the start of a block. -/
theorem BytesAt.readWord {mem : Memory} {a : Nat} {bs zs : List UInt8}
    (h : BytesAt mem a (bs ++ zs)) : readWord mem a bs.length = ofBytes bs := by
  refine leValue_congr fun i hi => ?_
  have hbyte := h i (by simp only [List.length_append]; omega)
  rw [hbyte, List.getElem_append_left hi, List.getD_eq_getElem?_getD,
    List.getElem?_eq_getElem hi, Option.getD_some]

/-- A word laid down inside a block. -/
theorem BytesAt.readWord_leBytes {mem : Memory} {a v n : Nat} (xs : List UInt8)
    {zs : List UInt8} (h : BytesAt mem a (xs ++ leBytes n v ++ zs)) (hv : v < 256 ^ n) :
    Bytes.readWord mem (a + xs.length) n = v := by
  rw [← Nat.mod_eq_of_lt hv]
  refine leValue_leBytes n v _ fun i hi => ?_
  have hbyte := h (xs.length + i) (by simp only [List.length_append]; omega)
  have hn : i < n := by simpa using hi
  rw [← Nat.add_assoc] at hbyte
  rw [hbyte]
  simp [hn]

/-- The start of a block. -/
theorem BytesAt.left {mem : Memory} {a : Nat} {xs ys : List UInt8} (h : BytesAt mem a (xs ++ ys)) :
    BytesAt mem a xs := by
  intro i hi
  have hbyte := h i (by simp only [List.length_append]; omega)
  rw [hbyte, List.getElem_append_left hi]

/-- The rest of a block. -/
theorem BytesAt.drop {mem : Memory} {a : Nat} (xs : List UInt8) {ys : List UInt8}
    (h : BytesAt mem a (xs ++ ys)) : BytesAt mem (a + xs.length) ys := by
  intro i hi
  have hbyte := h (xs.length + i) (by simp only [List.length_append]; omega)
  rw [← Nat.add_assoc] at hbyte
  rw [hbyte]
  simp

/-- The block is still there in a memory with the same bytes. -/
theorem BytesAt.congr {mem mem' : Memory} {a : Nat} {bs : List UInt8} (h : BytesAt mem a bs)
    (hsame : ∀ i < bs.length, mem' (a + i) = mem (a + i)) : BytesAt mem' a bs :=
  fun i hi => (hsame i hi).trans (h i hi)

/-! ## Sequences of stores -/

/-- One block store. -/
structure Store where
  addr : Nat
  bytes : List UInt8
deriving DecidableEq, Repr

/-- The addresses a store touches. -/
def Store.span (s : Store) : Span := ⟨s.addr, s.bytes.length⟩

/-- Carry out stores in order. -/
def applyStores (mem : Memory) (ss : List Store) : Memory :=
  ss.foldl (fun m s => write m s.addr s.bytes) mem

@[simp] theorem applyStores_nil (mem : Memory) : applyStores mem [] = mem := rfl

@[simp] theorem applyStores_cons (mem : Memory) (s : Store) (ss : List Store) :
    applyStores mem (s :: ss) = applyStores (write mem s.addr s.bytes) ss := rfl

/-- An address none of the stores touches keeps its byte. -/
theorem applyStores_of_disjoint {ss : List Store} {mem : Memory} {x : Nat}
    (h : ∀ s ∈ ss, ¬ s.span.Contains x) : applyStores mem ss x = mem x := by
  induction ss generalizing mem with
  | nil => rfl
  | cons s ss ih =>
      rw [applyStores_cons, ih fun t ht => h t (List.mem_cons_of_mem s ht),
        write_of_disjoint (h s List.mem_cons_self)]

end Bytes
