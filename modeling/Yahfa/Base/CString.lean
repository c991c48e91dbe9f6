import Yahfa.Base.Bytes

/-!
# C strings in a byte memory

A string is the bytes up to the first zero. `CString mem` is one in a memory: what
it is known to be is part of it. Comparing bytes in memory is comparing texts
(`prefix_drop_iff`), whatever stands behind the terminators, and copying a string
gives a string (`copied`).
-/

namespace Bytes

/-- The bytes of a string literal. -/
def ofString (s : String) : List UInt8 := s.toList.map fun c => UInt8.ofNat c.toNat

/-- A string in memory, with its terminator. -/
structure CString (mem : Memory) where
  addr : Nat
  text : List UInt8
  addr_ne_zero : addr ≠ 0
  zero_notMem : 0 ∉ text
  bytesAt : BytesAt mem addr (text ++ [0])

namespace CString

/-- There is one text at an address. -/
theorem text_unique {mem : Memory} {a : Nat} {xs ys : List UInt8} (hxs : 0 ∉ xs) (hys : 0 ∉ ys)
    (hx : BytesAt mem a (xs ++ [0])) (hy : BytesAt mem a (ys ++ [0])) : xs = ys := by
  induction xs generalizing a ys with
  | nil =>
      cases ys with
      | nil => rfl
      | cons y ys =>
          have hzero : (0 : UInt8) = y := (hx 0 (by simp)).symm.trans (hy 0 (by simp))
          exact absurd List.mem_cons_self (hzero ▸ hys)
  | cons x xs ih =>
      have hfirst : mem a = x := hx 0 (by simp)
      cases ys with
      | nil =>
          have hzero : (0 : UInt8) = x := (hy 0 (by simp)).symm.trans hfirst
          exact absurd List.mem_cons_self (hzero ▸ hxs)
      | cons y ys =>
          have hsame : x = y := hfirst.symm.trans (hy 0 (by simp))
          have hrest := ih (fun h => hxs (List.mem_cons_of_mem x h))
            (fun h => hys (List.mem_cons_of_mem y h)) (hx.drop [x]) (hy.drop [y])
          rw [hsame, hrest]

variable {mem : Memory} (s t : CString mem)

/-- The bytes of a string, with the terminator. -/
def span : Span := ⟨s.addr, s.text.length + 1⟩

variable {s t} {i k : Nat}

theorem contains_span {a : Nat} (hi : i ≤ s.text.length) (ha : a = s.addr + i) :
    s.span.Contains a := by
  simp only [span, Span.Contains]
  omega

theorem byte_of_lt (hi : i < s.text.length) : mem (s.addr + i) = s.text[i] := by
  have hbyte := s.bytesAt i (by simp only [List.length_append]; omega)
  rw [hbyte, List.getElem_append_left hi]

variable (s) in
theorem byte_length : mem (s.addr + s.text.length) = 0 := by
  have hbyte := s.bytesAt s.text.length (by simp)
  rw [hbyte]
  simp

/-- Up to the terminator, only the terminator is zero. -/
theorem byte_eq_zero_iff (hi : i ≤ s.text.length) : mem (s.addr + i) = 0 ↔ i = s.text.length := by
  constructor
  · intro hzero
    by_contra hne
    have hlt : i < s.text.length := Nat.lt_of_le_of_ne hi hne
    rw [byte_of_lt hlt] at hzero
    exact s.zero_notMem (hzero ▸ List.getElem_mem hlt)
  · rintro rfl
    exact s.byte_length

/-- A text stands at an offset of another one exactly when the bytes agree. -/
theorem prefix_drop_iff (hk : k ≤ s.text.length) :
    t.text <+: s.text.drop k ↔ ∀ i < t.text.length, mem (s.addr + k + i) = mem (t.addr + i) := by
  rw [List.prefix_iff_getElem]
  constructor
  · rintro ⟨hlen, hbytes⟩ i hi
    rw [List.length_drop] at hlen
    have hki : k + i < s.text.length := by omega
    have hbyte := hbytes i hi
    rw [List.getElem_drop] at hbyte
    rw [Nat.add_assoc, byte_of_lt hki, byte_of_lt hi, hbyte]
  · intro hbytes
    -- the terminator of the one text would be a byte of the other
    have hlen : k + t.text.length ≤ s.text.length := by
      by_contra hlt
      have hi : s.text.length - k < t.text.length := by omega
      have hend := hbytes _ hi
      rw [Nat.add_assoc, Nat.add_sub_cancel' hk, s.byte_length] at hend
      have hlast := (byte_eq_zero_iff (Nat.le_of_lt hi)).mp hend.symm
      omega
    refine ⟨by rw [List.length_drop]; omega, ?_⟩
    intro i hi
    have hki : k + i < s.text.length := by omega
    have hbyte := hbytes i hi
    rw [Nat.add_assoc, byte_of_lt hki, byte_of_lt hi] at hbyte
    rw [List.getElem_drop, hbyte]

/-- A text that is not empty occurs at an offset in front of the terminator. -/
theorem isInfix_iff {xs ys : List UInt8} (hne : xs ≠ []) :
    xs <:+: ys ↔ ∃ k < ys.length, xs <+: ys.drop k := by
  constructor
  · rintro ⟨pre, post, rfl⟩
    have hpos : 0 < xs.length := List.length_pos_iff.mpr hne
    refine ⟨pre.length, by simp only [List.length_append]; omega, ?_⟩
    rw [List.append_assoc, List.drop_left]
    exact List.prefix_append xs post
  · rintro ⟨k, -, h⟩
    exact h.isInfix.trans (List.drop_suffix k ys).isInfix

/-! ## Copying -/

/-- `strcpy`: the store that copies a string, with its terminator. -/
def strcpy (dest : Nat) (src : CString mem) : Store := ⟨dest, src.text ++ [0]⟩

/-- The copy of a string. -/
def copied (src : CString mem) {dest : Nat} (hdest : dest ≠ 0) :
    CString (applyStores mem [strcpy dest src]) where
  addr := dest
  text := src.text
  addr_ne_zero := hdest
  zero_notMem := src.zero_notMem
  bytesAt := bytesAt_write mem dest (src.text ++ [0])

/-- A copy stays in the place of a string exactly when it is not longer. -/
theorem strcpy_within_iff {src : CString mem} :
    (strcpy s.addr src).span.Within s.span ↔ src.text.length ≤ s.text.length := by
  simp only [strcpy, Store.span, span, Span.Within, List.length_append, List.length_singleton]
  omega

end CString

end Bytes
