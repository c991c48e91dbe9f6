import Mathlib.Data.Int.ModEq
import Mathlib.Tactic.Ring
import Mathlib.Tactic.Linarith

/-!
# Signed LEB128 numbers

A number as groups of seven bits, lowest first, a byte each; all bytes but the
last have the high bit set, and bit 6 of the last is the sign. `encode` spells a
number with the fewest bytes, and `value` reads it back (`value_encode`).

`word_eq` is what a decoder with words of a fixed width relies on: the bits of the
groups put in place with `|||` are the number, cut to the width.
-/

namespace Sleb128

/-! ## The number some bytes spell -/

/-- The groups of seven bits, without the sign. -/
def magnitude : List UInt8 → Nat
  | [] => 0
  | b :: bs => b.toNat % 128 + 128 * magnitude bs

/-- Bit 6 of the last byte. -/
def Negative (bs : List UInt8) : Prop := ∃ b ∈ bs.getLast?, 64 ≤ b.toNat % 128

instance (bs : List UInt8) : Decidable (Negative bs) :=
  inferInstanceAs (Decidable (∃ b ∈ bs.getLast?, 64 ≤ b.toNat % 128))

/-- The number. -/
def value (bs : List UInt8) : Int :=
  magnitude bs - if Negative bs then 128 ^ bs.length else 0

/-- A number and nothing behind it: only the last byte has its high bit clear. -/
structure IsEncoding (bs : List UInt8) : Prop where
  init : ∀ b ∈ bs.dropLast, 128 ≤ b.toNat
  last : ∃ b ∈ bs.getLast?, b.toNat < 128

variable {b : UInt8} {bs cs : List UInt8}

theorem magnitude_lt (bs : List UInt8) : magnitude bs < 128 ^ bs.length := by
  induction bs with
  | nil => simp [magnitude]
  | cons b bs ih =>
      have hlow : b.toNat % 128 < 128 := Nat.mod_lt _ (by decide)
      rw [magnitude, List.length_cons, pow_succ]
      omega

theorem magnitude_append (bs cs : List UInt8) :
    magnitude (bs ++ cs) = magnitude bs + 128 ^ bs.length * magnitude cs := by
  induction bs with
  | nil => simp [magnitude]
  | cons b bs ih =>
      rw [List.cons_append, magnitude, magnitude, ih, List.length_cons, pow_succ]
      ring

theorem IsEncoding.ne_nil (h : IsEncoding bs) : bs ≠ [] := by
  rintro rfl
  rcases h.last with ⟨b, hb, -⟩
  simp at hb

theorem isEncoding_singleton (h : b.toNat < 128) : IsEncoding [b] :=
  ⟨by simp, b, by simp, h⟩

theorem IsEncoding.cons (hb : 128 ≤ b.toNat) (h : IsEncoding bs) : IsEncoding (b :: bs) := by
  have hne := h.ne_nil
  refine ⟨fun c hc => ?_, ?_⟩
  · rw [List.dropLast_cons_of_ne_nil hne] at hc
    rcases List.mem_cons.mp hc with rfl | hc
    · exact hb
    · exact h.init c hc
  · rw [List.getLast?_cons_of_ne_nil hne]
    exact h.last

/-- The bytes of a number are its last one, or one that another follows. -/
theorem IsEncoding.cases_cons (h : IsEncoding (b :: bs)) :
    (bs = [] ∧ b.toNat < 128) ∨ (128 ≤ b.toNat ∧ IsEncoding bs) := by
  cases bs with
  | nil =>
      rcases h.last with ⟨c, hc, hlt⟩
      obtain rfl : b = c := by simpa using hc
      exact Or.inl ⟨rfl, hlt⟩
  | cons c cs =>
      refine Or.inr ⟨h.init b (by simp), fun d hd => h.init d ?_, h.last⟩
      rw [List.dropLast_cons_of_ne_nil (List.cons_ne_nil c cs)]
      exact List.mem_cons_of_mem b hd

/-- One group in front. -/
theorem value_cons (hne : bs ≠ []) :
    value (b :: bs) = (b.toNat % 128 : Nat) + 128 * value bs := by
  have hlast : Negative (b :: bs) ↔ Negative bs := by
    rw [Negative, Negative, List.getLast?_cons_of_ne_nil hne]
  rw [value, value, magnitude, List.length_cons, pow_succ]
  by_cases hneg : Negative bs
  · rw [if_pos hneg, if_pos (hlast.mpr hneg)]
    push_cast
    ring
  · rw [if_neg hneg, if_neg (hlast.not.mpr hneg)]
    push_cast
    ring

/-! ## Encoding -/

/-- The shortest encoding of a number. -/
def encode (v : Int) : List UInt8 :=
  if -64 ≤ v ∧ v < 64 then [UInt8.ofNat (v % 128).toNat]
  else UInt8.ofNat ((v % 128).toNat + 128) :: encode (v / 128)
termination_by v.natAbs
decreasing_by omega

theorem toNat_ofNat_of_lt {n : Nat} (h : n < 256) : (UInt8.ofNat n).toNat = n := by
  simp [Nat.mod_eq_of_lt h]

theorem isEncoding_encode (v : Int) : IsEncoding (encode v) := by
  induction v using encode.induct with
  | case1 v hsmall =>
      rw [encode, if_pos hsmall]
      exact isEncoding_singleton (by rw [toNat_ofNat_of_lt] <;> omega)
  | case2 v hlarge ih =>
      rw [encode, if_neg hlarge]
      exact ih.cons (by rw [toNat_ofNat_of_lt] <;> omega)

/-- The encoding of a number spells the number. -/
theorem value_encode (v : Int) : value (encode v) = v := by
  induction v using encode.induct with
  | case1 v hsmall =>
      have hbyte : (UInt8.ofNat (v % 128).toNat).toNat = (v % 128).toNat :=
        toNat_ofNat_of_lt (by omega)
      rw [encode, if_pos hsmall, value, magnitude, magnitude, hbyte]
      -- the sign is bit 6 of the byte
      by_cases hv : v < 0
      · have hneg : Negative [UInt8.ofNat (v % 128).toNat] :=
          ⟨UInt8.ofNat (v % 128).toNat, by simp, by omega⟩
        rw [if_pos hneg, List.length_singleton]
        omega
      · have hpos : ¬ Negative [UInt8.ofNat (v % 128).toNat] := by
          rintro ⟨b, hb, hbit⟩
          obtain rfl : UInt8.ofNat (v % 128).toNat = b := by simpa using hb
          omega
        rw [if_neg hpos]
        omega
  | case2 v hlarge ih =>
      rw [encode, if_neg hlarge, value_cons (isEncoding_encode _).ne_nil, ih,
        toNat_ofNat_of_lt (by omega)]
      omega

/-- A number of `7 * (n + 1)` bits takes at most `n + 1` bytes. -/
theorem length_encode_le {v : Int} {n : Nat} (hlow : -(64 * 128 ^ n) ≤ v) (hhigh : v < 64 * 128 ^ n) :
    (encode v).length ≤ n + 1 := by
  induction n generalizing v with
  | zero =>
      rw [encode, if_pos (by omega)]
      simp
  | succ n ih =>
      rw [encode]
      split
      · simp
      · have hpow : (128 : Int) ^ (n + 1) = 128 ^ n * 128 := pow_succ 128 n
        have hle := ih (v := v / 128) (by omega) (by omega)
        simpa using hle

/-! ## The bits of a byte -/

theorem toNat_and_127 (b : UInt8) : (b &&& 127).toNat = b.toNat % 128 := by
  rw [UInt8.toNat_and]
  exact Nat.and_two_pow_sub_one_eq_mod b.toNat 7

theorem and_128_ne_zero_iff (b : UInt8) : b &&& 128 ≠ 0 ↔ 128 ≤ b.toNat := by
  have hall : ∀ n : Fin 256, UInt8.ofFin n &&& 128 ≠ 0 ↔ 128 ≤ (UInt8.ofFin n).toNat := by
    decide +kernel
  exact hall b.toFin

theorem and_64_ne_zero_iff (b : UInt8) : b &&& 64 ≠ 0 ↔ 64 ≤ b.toNat % 128 := by
  have hall : ∀ n : Fin 256, UInt8.ofFin n &&& 64 ≠ 0 ↔ 64 ≤ (UInt8.ofFin n).toNat % 128 := by
    decide +kernel
  exact hall b.toFin

/-! ## Words of a fixed width -/

variable {w : Nat}

/-- Bits put above all those that are there. -/
theorem or_shiftLeft {u s : Nat} (x : Nat) (hu : u < 2 ^ s) :
    BitVec.ofNat w u ||| BitVec.ofNat w x <<< s = BitVec.ofNat w (u + x * 2 ^ s) := by
  have hor : u + x * 2 ^ s = u ||| x <<< s := by
    rw [Nat.or_comm, ← Nat.shiftLeft_add_eq_or_of_lt hu x, Nat.shiftLeft_eq, Nat.add_comm]
  rw [hor]
  apply BitVec.eq_of_toNat_eq
  simp [Nat.shiftLeft_eq, Nat.mod_mul_mod]

/-- A group put in place. -/
theorem ofNat_magnitude_snoc (w : Nat) (bs : List UInt8) (b : UInt8) :
    BitVec.ofNat w (magnitude bs) ||| BitVec.ofNat w (b &&& 127).toNat <<< (7 * bs.length) =
      BitVec.ofNat w (magnitude (bs ++ [b])) := by
  have hpow : (128 : Nat) ^ bs.length = 2 ^ (7 * bs.length) := by
    rw [pow_mul]
    rfl
  rw [or_shiftLeft _ (hpow ▸ magnitude_lt bs), toNat_and_127, magnitude_append, ← hpow, magnitude,
    magnitude, Nat.mul_zero, Nat.add_zero, Nat.mul_comm]

theorem negative_snoc (bs : List UInt8) (b : UInt8) : Negative (bs ++ [b]) ↔ b &&& 64 ≠ 0 := by
  rw [and_64_ne_zero_iff, Negative, List.getLast?_concat]
  simp

/-- The bits above a position, all set. -/
theorem neg_one_shiftLeft {s : Nat} (hs : s ≤ w) :
    -((1 : BitVec w) <<< s) = BitVec.ofNat w (2 ^ (w - s) - 1) <<< s := by
  have hpow : 2 ^ (w - s) * 2 ^ s = 2 ^ w := by rw [← pow_add, Nat.sub_add_cancel hs]
  have hpos : 0 < 2 ^ s := Nat.two_pow_pos s
  have hmul : (2 ^ (w - s) - 1) * 2 ^ s = 2 ^ w - 2 ^ s := by rw [Nat.sub_mul, hpow, Nat.one_mul]
  apply BitVec.eq_of_toNat_eq
  rcases Nat.eq_or_lt_of_le hs with rfl | hlt
  · simp
  · have hlt' : 2 ^ s < 2 ^ w := Nat.pow_lt_pow_right (by decide) hlt
    have hone : (1 : Nat) < 2 ^ w := lt_of_le_of_lt hpos hlt'
    simp [BitVec.toNat_neg, Nat.shiftLeft_eq, hmul, Nat.mod_eq_of_lt hlt', Nat.mod_eq_of_lt hone]

/-- The word of a number. -/
def word (w : Nat) (bs : List UInt8) : BitVec w := BitVec.ofInt w (value bs)

/-- The magnitude with the sign extended, if there are bits left for it, is the
word. -/
theorem word_eq (w : Nat) (bs : List UInt8) :
    word w bs =
      if 7 * bs.length < w ∧ Negative bs then
        BitVec.ofNat w (magnitude bs) ||| -((1 : BitVec w) <<< (7 * bs.length))
      else BitVec.ofNat w (magnitude bs) := by
  have hpow : (128 : Nat) ^ bs.length = 2 ^ (7 * bs.length) := by
    rw [pow_mul]
    rfl
  have hmagnitude : magnitude bs < 2 ^ (7 * bs.length) := hpow ▸ magnitude_lt bs
  have hcast : (128 : Int) ^ bs.length = ((2 ^ (7 * bs.length) : Nat) : Int) := by
    rw [← hpow]
    push_cast
    rfl
  unfold word value
  rw [hcast]
  generalize hs : 7 * bs.length = s at *
  apply BitVec.eq_of_toNat_eq
  by_cases hneg : Negative bs
  · by_cases hlt : s < w
    · -- the sign fills the bits above
      have hle : 2 ^ s ≤ 2 ^ w := Nat.pow_le_pow_right (by decide) (Nat.le_of_lt hlt)
      have hmul : (2 ^ (w - s) - 1) * 2 ^ s = 2 ^ w - 2 ^ s := by
        rw [Nat.sub_mul, ← pow_add, Nat.sub_add_cancel (Nat.le_of_lt hlt), Nat.one_mul]
      rw [if_pos hneg, if_pos ⟨hlt, hneg⟩, neg_one_shiftLeft (Nat.le_of_lt hlt),
        or_shiftLeft _ hmagnitude, hmul, BitVec.toNat_ofNat, BitVec.toNat_ofInt]
      have hcong : ((magnitude bs : Int) - (2 ^ s : Nat)) % (2 ^ w : Nat) =
          ((magnitude bs + (2 ^ w - 2 ^ s) : Nat) : Int) % (2 ^ w : Nat) := by
        rw [← Int.add_emod_left]
        congr 1
        push_cast [Nat.cast_sub hle]
        ring
      rw [hcong]
      norm_cast
    · -- the number has more bits than the word
      have hdvd : ((2 ^ w : Nat) : Int) ∣ ((2 ^ s : Nat) : Int) :=
        Int.natCast_dvd_natCast.mpr (pow_dvd_pow 2 (not_lt.mp hlt))
      rw [if_pos hneg, if_neg (fun h => hlt h.1), BitVec.toNat_ofNat, BitVec.toNat_ofInt,
        Int.sub_emod, Int.emod_eq_zero_of_dvd hdvd, sub_zero, Int.emod_emod_of_dvd _ (dvd_refl _)]
      norm_cast
  · rw [if_neg hneg, if_neg (fun h => hneg h.2), BitVec.toNat_ofNat, BitVec.toNat_ofInt, sub_zero]
    norm_cast

end Sleb128
