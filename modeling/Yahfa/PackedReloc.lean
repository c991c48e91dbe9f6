import Yahfa.Common
import Yahfa.Base.Iter
import Yahfa.Base.Sleb128

/-!
# Relocation sections

`xh_elf.c` goes through a relocation section with an iterator: over plain entries
one behind the other, or over the packed format of Android, SLEB128 numbers in
groups that share their offset delta, their info or their addend.

The packed format has a meaning of its own, `PackedSection.expand`, and `encode`
spells it in bytes. The packed iterator is a decoder for it
(`packedReloc_roundTrip`), and whatever the bytes are it looks at no others.
-/

namespace Yahfa

open Bytes Iter

/-! ## Words and relocation entries -/

/-- The bits of a `size_t`, an `ssize_t` or an `ElfW(Addr)`. -/
def wordBits (abi : Abi) : Nat := 8 * pointerSize abi

/-- A `size_t`, an `ssize_t` or an `ElfW(Addr)`. -/
abbrev Word (abi : Abi) := BitVec (wordBits abi)

/-- `ElfW(Rela)`, or without addend `ElfW(Rel)`. -/
structure ElfRel (abi : Abi) where
  rOffset : Word abi
  rInfo : Word abi
  rAddend : Option (Word abi)
deriving DecidableEq, Repr

/-- The relocation entry at an address. -/
def readRel (abi : Abi) (mem : Memory) (addr : Nat) (isUseRela : Bool) : ElfRel abi where
  rOffset := BitVec.ofNat _ (readAddr abi mem addr)
  rInfo := BitVec.ofNat _ (readAddr abi mem (addr + pointerSize abi))
  rAddend :=
    if isUseRela then some (BitVec.ofNat _ (readAddr abi mem (addr + 2 * pointerSize abi)))
    else none

/-! ## `xh_elf_plain_reloc_iterator_t` -/

/-- `xh_elf_plain_reloc_iterator_t`. -/
structure PlainRelocIterator where
  cur : Nat
  endAddr : Nat
  isUseRela : Bool
deriving DecidableEq, Repr

/-- `xh_elf_plain_reloc_iterator_init`. -/
def xhElfPlainRelocIteratorInit (rel relSz : Nat) (isUseRela : Bool) : PlainRelocIterator :=
  ⟨rel, rel + relSz, isUseRela⟩

/-- `sizeof(ElfW(Rela))` or `sizeof(ElfW(Rel))`. -/
def relSize (abi : Abi) (isUseRela : Bool) : Nat :=
  if isUseRela then 3 * pointerSize abi else 2 * pointerSize abi

/-- `xh_elf_plain_reloc_iterator_next`, with the entry it points to. -/
def xhElfPlainRelocIteratorNext (abi : Abi) (mem : Memory) (self : PlainRelocIterator) :
    Outcome (ElfRel abi × PlainRelocIterator) :=
  if self.endAddr ≤ self.cur then .failed
  else
    .ok (readRel abi mem self.cur self.isUseRela,
      { self with cur := self.cur + relSize abi self.isUseRela })

/-! ## `xh_elf_sleb128_decoder_t` -/

/-- `xh_elf_sleb128_decoder_t`. -/
structure Sleb128Decoder where
  cur : Nat
  endAddr : Nat
deriving DecidableEq, Repr

/-- The loop of `xh_elf_sleb128_decoder_next`, with `n` bytes left in front of the
end. -/
def sleb128Loop (abi : Abi) (mem : Memory) :
    Nat → Word abi → Nat → Nat → Outcome (Word abi × Nat)
  | 0, _, _, _ => .failed
  | n + 1, value, shift, cur =>
      -- no shift by all the bits of the type
      if wordBits abi ≤ shift then .undefined
      else
        let byte := mem cur
        let value := value ||| BitVec.ofNat _ (byte &&& 127).toNat <<< shift
        let shift := shift + 7
        if byte &&& 128 ≠ 0 then sleb128Loop abi mem n value shift (cur + 1)
        else if shift < wordBits abi ∧ byte &&& 64 ≠ 0 then
          .ok (value ||| -((1 : Word abi) <<< shift), cur + 1)
        else .ok (value, cur + 1)

/-- `xh_elf_sleb128_decoder_next`. -/
def xhElfSleb128DecoderNext (abi : Abi) (mem : Memory) (self : Sleb128Decoder) :
    Outcome (Word abi × Sleb128Decoder) :=
  match sleb128Loop abi mem (self.endAddr - self.cur) 0 0 self.cur with
  | .ok (value, cur) => .ok (value, { self with cur := cur })
  | .failed => .failed
  | .undefined => .undefined

/-! ## `xh_elf_packed_reloc_iterator_t` -/

/-- `xh_elf_packed_reloc_iterator_t`. -/
structure PackedRelocIterator (abi : Abi) where
  decoder : Sleb128Decoder
  relocationCount : Word abi
  groupSize : Word abi
  groupFlags : Word abi
  groupROffsetDelta : Word abi
  relocationIndex : Nat
  relocationGroupIndex : Nat
  rOffset : Word abi
  rInfo : Word abi
  rAddend : Word abi
  isUseRela : Bool
deriving DecidableEq, Repr

section Iterator

variable (abi : Abi)

/-- `RELOCATION_GROUPED_BY_INFO_FLAG`. -/
def relocationGroupedByInfoFlag : Word abi := 1

/-- `RELOCATION_GROUPED_BY_OFFSET_DELTA_FLAG`. -/
def relocationGroupedByOffsetDeltaFlag : Word abi := 2

/-- `RELOCATION_GROUPED_BY_ADDEND_FLAG`. -/
def relocationGroupedByAddendFlag : Word abi := 4

/-- `RELOCATION_GROUP_HAS_ADDEND_FLAG`. -/
def relocationGroupHasAddendFlag : Word abi := 8

/-- The iterator as `memset` and the first lines of
`xh_elf_packed_reloc_iterator_init` leave it. -/
def PackedRelocIterator.zero (rel relSz : Nat) (isUseRela : Bool) : PackedRelocIterator abi where
  decoder := ⟨rel, rel + relSz⟩
  relocationCount := 0
  groupSize := 0
  groupFlags := 0
  groupROffsetDelta := 0
  relocationIndex := 0
  relocationGroupIndex := 0
  rOffset := 0
  rInfo := 0
  rAddend := 0
  isUseRela := isUseRela

/-- `xh_elf_packed_reloc_iterator_init`. Nothing looks at its result, so that the
iterator is in use after a failure too; the decoder is then at the end. -/
def xhElfPackedRelocIteratorInit (mem : Memory) (rel relSz : Nat) (isUseRela : Bool) :
    Outcome (PackedRelocIterator abi) :=
  let self := PackedRelocIterator.zero abi rel relSz isUseRela
  let atEnd : Sleb128Decoder := ⟨rel + relSz, rel + relSz⟩
  match xhElfSleb128DecoderNext abi mem self.decoder with
  | .undefined => .undefined
  | .failed => .ok { self with decoder := atEnd }
  | .ok (relocationCount, decoder) =>
      match xhElfSleb128DecoderNext abi mem decoder with
      | .undefined => .undefined
      | .failed => .ok { self with relocationCount := relocationCount, decoder := atEnd }
      | .ok (rOffset, decoder) =>
          .ok { self with
            relocationCount := relocationCount
            rOffset := rOffset
            decoder := decoder }

variable {abi}

/-- A flag of the group is set. -/
def PackedRelocIterator.Has (self : PackedRelocIterator abi) (flag : Word abi) : Prop :=
  self.groupFlags &&& flag ≠ 0

instance (self : PackedRelocIterator abi) (flag : Word abi) : Decidable (self.Has flag) :=
  inferInstanceAs (Decidable (_ ≠ _))

/-- Read a number into a field, if the condition holds. -/
def PackedRelocIterator.readWhen (mem : Memory) (self : PackedRelocIterator abi) (c : Prop)
    [Decidable c] (set : PackedRelocIterator abi → Word abi → PackedRelocIterator abi) :
    Outcome (PackedRelocIterator abi) :=
  if c then
    xhElfSleb128DecoderNext abi mem self.decoder >>= fun r =>
      .ok (set { self with decoder := r.2 } r.1)
  else .ok self

/-- `xh_elf_packed_reloc_iterator_read_group_fields`. -/
def xhElfPackedRelocIteratorReadGroupFields (mem : Memory) (self : PackedRelocIterator abi) :
    Outcome (PackedRelocIterator abi) :=
  self.readWhen mem True (fun self val => { self with groupSize := val }) >>= fun self =>
  self.readWhen mem True (fun self val => { self with groupFlags := val }) >>= fun self =>
  self.readWhen mem (self.Has (relocationGroupedByOffsetDeltaFlag abi))
    (fun self val => { self with groupROffsetDelta := val }) >>= fun self =>
  self.readWhen mem (self.Has (relocationGroupedByInfoFlag abi))
    (fun self val => { self with rInfo := val }) >>= fun self =>
  -- unexpected r_addend in android.rel section
  if self.Has (relocationGroupHasAddendFlag abi) ∧ self.Has (relocationGroupedByAddendFlag abi) ∧
      ¬ self.isUseRela then .failed
  else
    self.readWhen mem
      (self.Has (relocationGroupHasAddendFlag abi) ∧ self.Has (relocationGroupedByAddendFlag abi))
      (fun self val => { self with rAddend := self.rAddend + val }) >>= fun self =>
    .ok { self with
      rAddend := if self.Has (relocationGroupHasAddendFlag abi) then self.rAddend else 0
      relocationGroupIndex := 0 }

/-- `xh_elf_packed_reloc_iterator_next` behind the fields of the group. -/
def readPackedEntry (mem : Memory) (self : PackedRelocIterator abi) :
    Outcome (ElfRel abi × PackedRelocIterator abi) :=
  (if self.Has (relocationGroupedByOffsetDeltaFlag abi) then
    .ok { self with rOffset := self.rOffset + self.groupROffsetDelta }
  else
    self.readWhen mem True (fun self val => { self with rOffset := self.rOffset + val })) >>=
    fun self =>
  self.readWhen mem (¬ self.Has (relocationGroupedByInfoFlag abi))
    (fun self val => { self with rInfo := val }) >>= fun self =>
  self.readWhen mem
    (self.isUseRela ∧ self.Has (relocationGroupHasAddendFlag abi) ∧
      ¬ self.Has (relocationGroupedByAddendFlag abi))
    (fun self val => { self with rAddend := self.rAddend + val }) >>= fun self =>
  .ok
    (⟨self.rOffset, self.rInfo, if self.isUseRela then some self.rAddend else none⟩,
      { self with
        relocationIndex := self.relocationIndex + 1
        relocationGroupIndex := self.relocationGroupIndex + 1 })

/-- `xh_elf_packed_reloc_iterator_next`, with the entry it points to; no more
entries and a failure of the decoder are both the null pointer. -/
def xhElfPackedRelocIteratorNext (mem : Memory) (self : PackedRelocIterator abi) :
    Outcome (ElfRel abi × PackedRelocIterator abi) :=
  if self.relocationCount.toNat ≤ self.relocationIndex then .failed
  else if self.relocationGroupIndex = self.groupSize.toNat then
    xhElfPackedRelocIteratorReadGroupFields mem self >>= readPackedEntry mem
  else readPackedEntry mem self

end Iterator

/-! ## What a packed section means -/

/-- What an entry of a group has of its own. -/
structure PackedEntry (abi : Abi) where
  rOffsetDelta : Word abi
  rInfo : Word abi
  rAddendDelta : Word abi
deriving DecidableEq, Repr

/-- A group, with what its entries share. -/
structure PackedGroup (abi : Abi) where
  byInfo : Bool
  byOffsetDelta : Bool
  byAddend : Bool
  hasAddend : Bool
  rOffsetDelta : Word abi
  rInfo : Word abi
  rAddendDelta : Word abi
  entries : List (PackedEntry abi)
  entries_ne_nil : entries ≠ []

/-- The entries of some groups, counted. -/
def entryCount {abi : Abi} (gs : List (PackedGroup abi)) : Nat :=
  (gs.map fun g => g.entries.length).sum

/-- A section: the offset the first delta is added to, and the groups. Without
addends in the entries, there are none in the groups. -/
structure PackedSection (abi : Abi) (isUseRela : Bool) where
  rOffset : Word abi
  groups : List (PackedGroup abi)
  entryCount_lt : entryCount groups < 2 ^ wordBits abi
  rela : isUseRela = true ∨ ∀ g ∈ groups, g.hasAddend = false

/-- The entry before, all a packed entry refers to. -/
structure RelState (abi : Abi) where
  rOffset : Word abi
  rInfo : Word abi
  rAddend : Word abi
deriving DecidableEq, Repr

section Meaning

variable {abi : Abi} {isUseRela : Bool}

/-- The entry itself. -/
def RelState.rel (st : RelState abi) (isUseRela : Bool) : ElfRel abi :=
  ⟨st.rOffset, st.rInfo, if isUseRela then some st.rAddend else none⟩

/-- What a group does at its start. -/
def PackedGroup.enter (g : PackedGroup abi) (st : RelState abi) : RelState abi :=
  { st with
    rInfo := if g.byInfo then g.rInfo else st.rInfo
    rAddend :=
      if g.hasAddend then if g.byAddend then st.rAddend + g.rAddendDelta else st.rAddend else 0 }

/-- What an entry does. -/
def PackedGroup.step (g : PackedGroup abi) (st : RelState abi) (e : PackedEntry abi) :
    RelState abi where
  rOffset := st.rOffset + if g.byOffsetDelta then g.rOffsetDelta else e.rOffsetDelta
  rInfo := if g.byInfo then st.rInfo else e.rInfo
  rAddend := if g.hasAddend && !g.byAddend then st.rAddend + e.rAddendDelta else st.rAddend

/-- What the entries of a group come to, one after the other. -/
def PackedGroup.states (g : PackedGroup abi) : RelState abi → List (PackedEntry abi) →
    List (RelState abi)
  | _, [] => []
  | st, e :: es => g.step st e :: g.states (g.step st e) es

/-- The entries of some groups. -/
def expandGroups (isUseRela : Bool) : RelState abi → List (PackedGroup abi) → List (ElfRel abi)
  | _, [] => []
  | st, g :: gs =>
      (g.states (g.enter st) g.entries).map (·.rel isUseRela) ++
        expandGroups isUseRela (g.entries.foldl g.step (g.enter st)) gs

/-- The entries of a section. -/
def PackedSection.expand (S : PackedSection abi isUseRela) : List (ElfRel abi) :=
  expandGroups isUseRela ⟨S.rOffset, 0, 0⟩ S.groups

/-! ## The bytes of a packed section -/

/-- A word, as a signed number. -/
def encodeWord (x : Word abi) : List UInt8 := Sleb128.encode x.toInt

/-- A word that is there under a condition. -/
def encodeWhen (b : Bool) (x : Word abi) : List UInt8 := if b then encodeWord x else []

/-- The flags of a group. -/
def PackedGroup.flags (g : PackedGroup abi) : Word abi :=
  (if g.byInfo then relocationGroupedByInfoFlag abi else 0) |||
    (if g.byOffsetDelta then relocationGroupedByOffsetDeltaFlag abi else 0) |||
    (if g.byAddend then relocationGroupedByAddendFlag abi else 0) |||
    (if g.hasAddend then relocationGroupHasAddendFlag abi else 0)

/-- What stands at the start of a group. -/
def PackedGroup.header (g : PackedGroup abi) : List UInt8 :=
  encodeWord (BitVec.ofNat (wordBits abi) g.entries.length) ++ encodeWord g.flags ++
    encodeWhen g.byOffsetDelta g.rOffsetDelta ++ encodeWhen g.byInfo g.rInfo ++
    encodeWhen (g.hasAddend && g.byAddend) g.rAddendDelta

/-- What stands for an entry. -/
def PackedGroup.encodeEntry (g : PackedGroup abi) (e : PackedEntry abi) : List UInt8 :=
  encodeWhen (!g.byOffsetDelta) e.rOffsetDelta ++ encodeWhen (!g.byInfo) e.rInfo ++
    encodeWhen (g.hasAddend && !g.byAddend) e.rAddendDelta

/-- The bytes of some groups. -/
def encodeGroups (gs : List (PackedGroup abi)) : List UInt8 :=
  gs.flatMap fun g => g.header ++ g.entries.flatMap g.encodeEntry

/-- The bytes of a section, behind the `APS2` in front. -/
def PackedSection.encode (S : PackedSection abi isUseRela) : List UInt8 :=
  encodeWord (BitVec.ofNat (wordBits abi) (entryCount S.groups)) ++ encodeWord S.rOffset ++
    encodeGroups S.groups

end Meaning

/-! ## Decoding a number -/

section Decoder

variable {abi : Abi} {mem : Memory}

/-- The bytes are the next ones in front of the decoder. -/
def Sleb128Decoder.Ahead (self : Sleb128Decoder) (mem : Memory) (bs : List UInt8) : Prop :=
  BytesAt mem self.cur bs ∧ self.cur + bs.length ≤ self.endAddr

/-- The decoder some bytes further on. -/
def Sleb128Decoder.skip (self : Sleb128Decoder) (bs : List UInt8) : Sleb128Decoder :=
  { self with cur := self.cur + bs.length }

theorem Sleb128Decoder.Ahead.skip {self : Sleb128Decoder} {bs cs : List UInt8}
    (h : self.Ahead mem (bs ++ cs)) : (self.skip bs).Ahead mem cs := by
  refine ⟨h.1.drop bs, ?_⟩
  have hend := h.2
  simp only [List.length_append] at hend
  simp only [Sleb128Decoder.skip]
  omega

@[simp] theorem Sleb128Decoder.skip_skip (self : Sleb128Decoder) (bs cs : List UInt8) :
    (self.skip bs).skip cs = self.skip (bs ++ cs) := by
  simp [Sleb128Decoder.skip, Nat.add_assoc]

@[simp] theorem Sleb128Decoder.skip_nil (self : Sleb128Decoder) : self.skip [] = self := rfl

/-- The loop over an encoding, the bytes `pre` of which are behind it. -/
theorem sleb128Loop_eq {n cur : Nat} (pre bs : List UInt8) (henc : Sleb128.IsEncoding bs)
    (hbytes : BytesAt mem cur bs) (hn : bs.length ≤ n)
    (hwidth : 7 * (pre.length + (bs.length - 1)) < wordBits abi) :
    sleb128Loop abi mem n (BitVec.ofNat _ (Sleb128.magnitude pre)) (7 * pre.length) cur =
      .ok (Sleb128.word (wordBits abi) (pre ++ bs), cur + bs.length) := by
  induction bs generalizing pre n cur with
  | nil => exact absurd rfl henc.ne_nil
  | cons b bs ih =>
      rcases Nat.exists_eq_add_of_le' (Nat.le_of_add_left_le hn) with ⟨n, rfl⟩
      have hbyte : mem cur = b := hbytes 0 (by simp)
      have hshift : ¬ wordBits abi ≤ 7 * pre.length := by omega
      have hlength : 7 * pre.length + 7 = 7 * (pre ++ [b]).length := by simp; omega
      simp only [sleb128Loop, if_neg hshift, hbyte, Sleb128.ofNat_magnitude_snoc, hlength]
      rcases henc.cases_cons with ⟨rfl, hlast⟩ | ⟨hmore, hrest⟩
      · -- the last byte
        have hclear : ¬ b &&& 128 ≠ 0 := (Sleb128.and_128_ne_zero_iff b).not.mpr (not_le.mpr hlast)
        rw [if_neg hclear, Sleb128.word_eq]
        simp only [Sleb128.negative_snoc]
        split <;> rfl
      · -- there are more
        have hpos : 0 < bs.length := List.length_pos_iff.mpr hrest.ne_nil
        simp only [List.length_cons] at hn hwidth ⊢
        have hnext := @ih n (cur + 1) (pre ++ [b]) hrest (BytesAt.drop [b] hbytes)
          (by omega) (by simp only [List.length_append, List.length_singleton]; omega)
        rw [if_pos ((Sleb128.and_128_ne_zero_iff b).mpr hmore), hnext, List.append_assoc,
          List.singleton_append, Nat.add_assoc, Nat.add_comm 1]

/-- An encoded word is short enough for its last byte to be shifted. -/
theorem length_encodeWord (x : Word abi) : 7 * ((encodeWord x).length - 1) < wordBits abi := by
  have hgroups : ∃ n, 7 * n < wordBits abi ∧ (2 : Int) ^ (wordBits abi - 1) ≤ 64 * 128 ^ n := by
    cases abi with
    | i386 | arm => exact ⟨4, by decide⟩
    | x86_64 | aarch64 => exact ⟨9, by decide⟩
  rcases hgroups with ⟨n, hn, hpow⟩
  have hlow := BitVec.le_toInt x
  have hhigh := BitVec.toInt_lt (x := x)
  have hle := Sleb128.length_encode_le (v := x.toInt) (n := n) (by omega) (by omega)
  rw [encodeWord]
  omega

/-- An encoded word is decoded to the word. -/
theorem xhElfSleb128DecoderNext_encodeWord {self : Sleb128Decoder} {x : Word abi}
    {bs : List UInt8} (h : self.Ahead mem (encodeWord x ++ bs)) :
    xhElfSleb128DecoderNext abi mem self = .ok (x, self.skip (encodeWord x)) := by
  have hend := h.2
  rw [List.length_append] at hend
  have hword : Sleb128.word (wordBits abi) (encodeWord x) = x := by
    rw [Sleb128.word, encodeWord, Sleb128.value_encode, BitVec.ofInt_toInt]
  have hloop : sleb128Loop abi mem (self.endAddr - self.cur) 0 0 self.cur =
      .ok (Sleb128.word (wordBits abi) (encodeWord x), self.cur + (encodeWord x).length) :=
    sleb128Loop_eq [] (encodeWord x) (Sleb128.isEncoding_encode _) h.1.left (by omega)
      (by simpa using length_encodeWord x)
  simp only [xhElfSleb128DecoderNext, hloop, hword, Sleb128Decoder.skip]

/-- The bytes a number may take: those for which there is a bit to shift to. -/
def maxNumberBytes (abi : Abi) : Nat := (wordBits abi + 6) / 7

theorem wordBits_le_iff (abi : Abi) (k : Nat) : wordBits abi ≤ 7 * k ↔ maxNumberBytes abi ≤ k := by
  rw [maxNumberBytes]
  omega

/-- How the loop fails, `k` bytes behind it. -/
theorem sleb128Loop_iff {n k cur : Nat} {value : Word abi} :
    (sleb128Loop abi mem n value (7 * k) cur = .failed ↔
        n ≤ maxNumberBytes abi - k ∧ ∀ i < n, 128 ≤ (mem (cur + i)).toNat) ∧
      (sleb128Loop abi mem n value (7 * k) cur = .undefined ↔
        maxNumberBytes abi - k < n ∧
          ∀ i < maxNumberBytes abi - k, 128 ≤ (mem (cur + i)).toNat) := by
  induction n generalizing k cur value with
  | zero => simp [sleb128Loop]
  | succ n ih =>
      by_cases hshift : wordBits abi ≤ 7 * k
      · -- the number is too long
        have hmax := (wordBits_le_iff abi k).mp hshift
        have hzero : maxNumberBytes abi - k = 0 := by omega
        simp [sleb128Loop, hshift, hzero]
      · have hmax := (wordBits_le_iff abi k).not.mp hshift
        simp only [sleb128Loop, if_neg hshift]
        by_cases hbyte : mem cur &&& 128 ≠ 0
        · -- one more byte, and the rest one shorter
          have hlarge := (Sleb128.and_128_ne_zero_iff (mem cur)).mp hbyte
          have hall : ∀ m, (∀ i < m + 1, 128 ≤ (mem (cur + i)).toNat) ↔
              ∀ i < m, 128 ≤ (mem (cur + 1 + i)).toNat := by
            intro m
            constructor
            · intro h i hi
              rw [Nat.add_assoc, Nat.add_comm 1]
              exact h (i + 1) (by omega)
            · intro h i hi
              cases i with
              | zero => exact hlarge
              | succ i =>
                  rw [Nat.add_comm i, ← Nat.add_assoc]
                  exact h i (by omega)
          have hleft : maxNumberBytes abi - k = maxNumberBytes abi - (k + 1) + 1 := by omega
          have hnext : 7 * k + 7 = 7 * (k + 1) := by omega
          rw [if_pos hbyte, hnext, ih.1, ih.2, hleft, hall, hall]
          exact ⟨by rw [Nat.add_le_add_iff_right], by rw [Nat.add_lt_add_iff_right]⟩
        · -- the last byte
          have hsmall : ¬ 128 ≤ (mem (cur + 0)).toNat :=
            (Sleb128.and_128_ne_zero_iff (mem cur)).not.mp hbyte
          rw [if_neg hbyte]
          constructor
          · constructor
            · intro h
              split at h <;> cases h
            · rintro ⟨-, h⟩
              exact absurd (h 0 (by omega)) hsmall
          · constructor
            · intro h
              split at h <;> cases h
            · rintro ⟨-, h⟩
              exact absurd (h 0 (by omega)) hsmall

/-- What the decoder does with any bytes: a number of at most as many bytes as the
type has groups of seven bits is decoded, cut to the width of the type; otherwise it
fails at the end of the section, or it has shifted by more bits than there are. -/
theorem xhElfSleb128DecoderNext_cases (abi : Abi) (mem : Memory) (self : Sleb128Decoder) :
    (∀ bs, Sleb128.IsEncoding bs → self.Ahead mem bs → bs.length ≤ maxNumberBytes abi →
      xhElfSleb128DecoderNext abi mem self =
        .ok (BitVec.ofInt _ (Sleb128.value bs), self.skip bs)) ∧
    (xhElfSleb128DecoderNext abi mem self = .failed ↔
      self.endAddr - self.cur ≤ maxNumberBytes abi ∧
        ∀ i < self.endAddr - self.cur, 128 ≤ (mem (self.cur + i)).toNat) ∧
    (xhElfSleb128DecoderNext abi mem self = .undefined ↔
      maxNumberBytes abi < self.endAddr - self.cur ∧
        ∀ i < maxNumberBytes abi, 128 ≤ (mem (self.cur + i)).toNat) := by
  have hiff := @sleb128Loop_iff abi mem (self.endAddr - self.cur) 0 self.cur 0
  rw [Nat.mul_zero, Nat.sub_zero] at hiff
  refine ⟨?_, ?_, ?_⟩
  · intro bs henc hahead hlength
    have hpos : 0 < bs.length := List.length_pos_iff.mpr henc.ne_nil
    have hend := hahead.2
    have hloop : sleb128Loop abi mem (self.endAddr - self.cur) 0 0 self.cur =
        .ok (Sleb128.word (wordBits abi) bs, self.cur + bs.length) := by
      refine sleb128Loop_eq [] bs henc hahead.1 (by omega) ?_
      have hwidth := (wordBits_le_iff abi (bs.length - 1)).not
      simp only [List.length_nil, Nat.zero_add]
      omega
    simp only [xhElfSleb128DecoderNext, hloop, Sleb128.word, Sleb128Decoder.skip]
  · rw [← hiff.1, xhElfSleb128DecoderNext]
    cases sleb128Loop abi mem (self.endAddr - self.cur) 0 0 self.cur <;> simp
  · rw [← hiff.2, xhElfSleb128DecoderNext]
    cases sleb128Loop abi mem (self.endAddr - self.cur) 0 0 self.cur <;> simp

end Decoder

/-! ## Decoding a section -/

section Section

variable {abi : Abi} {isUseRela : Bool} {good : Memory → Prop} {g : PackedGroup abi}
  {gs : List (PackedGroup abi)} {e : PackedEntry abi} {es : List (PackedEntry abi)}
  {st : RelState abi} {it : PackedRelocIterator abi}

/-- The flags of a group are those of its description. -/
theorem PackedRelocIterator.has_iff (h : it.groupFlags = g.flags) :
    (it.Has (relocationGroupedByInfoFlag abi) ↔ g.byInfo = true) ∧
      (it.Has (relocationGroupedByOffsetDeltaFlag abi) ↔ g.byOffsetDelta = true) ∧
      (it.Has (relocationGroupedByAddendFlag abi) ↔ g.byAddend = true) ∧
      (it.Has (relocationGroupHasAddendFlag abi) ↔ g.hasAddend = true) := by
  simp only [PackedRelocIterator.Has, h, PackedGroup.flags]
  generalize g.byInfo = byInfo
  generalize g.byOffsetDelta = byOffsetDelta
  generalize g.byAddend = byAddend
  generalize g.hasAddend = hasAddend
  revert byInfo byOffsetDelta byAddend hasAddend
  cases abi <;> decide

/-- The iterator, with the bytes of some groups left in front of it. -/
structure BetweenGroups (good : Memory → Prop) (isUseRela : Bool) (gs : List (PackedGroup abi))
    (st : RelState abi) (it : PackedRelocIterator abi) : Prop where
  ahead : ∀ mem, good mem → it.decoder.Ahead mem (encodeGroups gs)
  count : it.relocationCount.toNat = it.relocationIndex + entryCount gs
  index : it.relocationGroupIndex = it.groupSize.toNat
  rOffset : it.rOffset = st.rOffset
  rInfo : it.rInfo = st.rInfo
  rAddend : it.rAddend = st.rAddend
  isUseRela : it.isUseRela = isUseRela

/-- The iterator inside a group, with some of its entries left. -/
structure InGroup (good : Memory → Prop) (isUseRela : Bool) (g : PackedGroup abi)
    (es : List (PackedEntry abi)) (gs : List (PackedGroup abi)) (st : RelState abi)
    (it : PackedRelocIterator abi) : Prop where
  ahead : ∀ mem, good mem →
    it.decoder.Ahead mem (es.flatMap g.encodeEntry ++ encodeGroups gs)
  count : it.relocationCount.toNat = it.relocationIndex + es.length + entryCount gs
  index : it.relocationGroupIndex + es.length = it.groupSize.toNat
  flags : it.groupFlags = g.flags
  delta : g.byOffsetDelta = true → it.groupROffsetDelta = g.rOffsetDelta
  rOffset : it.rOffset = st.rOffset
  rInfo : it.rInfo = st.rInfo
  rAddend : it.rAddend = st.rAddend
  isUseRela : it.isUseRela = isUseRela

/-- Behind the last entry of a group. -/
theorem InGroup.between (h : InGroup good isUseRela g [] gs st it) :
    BetweenGroups good isUseRela gs st it where
  ahead := by simpa using h.ahead
  count := by simpa using h.count
  index := by simpa using h.index
  rOffset := h.rOffset
  rInfo := h.rInfo
  rAddend := h.rAddend
  isUseRela := h.isUseRela

/-- The iterator behind an entry. -/
def PackedRelocIterator.behindEntry (it : PackedRelocIterator abi) (g : PackedGroup abi)
    (st : RelState abi) (e : PackedEntry abi) : PackedRelocIterator abi :=
  { it with
    decoder := it.decoder.skip (g.encodeEntry e)
    rOffset := (g.step st e).rOffset
    rInfo := (g.step st e).rInfo
    rAddend := (g.step st e).rAddend
    relocationIndex := it.relocationIndex + 1
    relocationGroupIndex := it.relocationGroupIndex + 1 }

theorem InGroup.behindEntry (h : InGroup good isUseRela g (e :: es) gs st it) :
    InGroup good isUseRela g es gs (g.step st e) (it.behindEntry g st e) where
  ahead mem hmem := by
    have hahead := h.ahead mem hmem
    rw [List.flatMap_cons, List.append_assoc] at hahead
    exact hahead.skip
  count := by
    have hcount := h.count
    simp only [List.length_cons] at hcount
    simp only [PackedRelocIterator.behindEntry]
    omega
  index := by
    have hindex := h.index
    simp only [List.length_cons] at hindex
    simp only [PackedRelocIterator.behindEntry]
    omega
  flags := h.flags
  delta := h.delta
  rOffset := rfl
  rInfo := rfl
  rAddend := rfl
  isUseRela := h.isUseRela

/-- A number that is there when it is read. -/
theorem PackedRelocIterator.readWhen_eq {mem : Memory} {c : Prop} [Decidable c] {b : Bool}
    {x : Word abi} {bs : List UInt8}
    {set : PackedRelocIterator abi → Word abi → PackedRelocIterator abi} (hc : c ↔ b = true)
    (hahead : it.decoder.Ahead mem (encodeWhen b x ++ bs)) :
    it.readWhen mem c set =
      .ok (if b then set { it with decoder := it.decoder.skip (encodeWhen b x) } x else it) := by
  cases b with
  | true =>
      simp only [encodeWhen, if_true] at hahead ⊢
      rw [readWhen, if_pos (hc.mpr rfl), xhElfSleb128DecoderNext_encodeWord hahead]
      rfl
  | false =>
      rw [readWhen, if_neg (fun h => absurd (hc.mp h) (by decide))]
      rfl

/-- An entry of a group is read. -/
theorem InGroup.readPackedEntry (h : InGroup good isUseRela g (e :: es) gs st it)
    (hrela : g.hasAddend = true → isUseRela = true) {mem : Memory} (hmem : good mem) :
    readPackedEntry mem it = .ok ((g.step st e).rel isUseRela, it.behindEntry g st e) := by
  have hahead := h.ahead mem hmem
  rw [List.flatMap_cons, PackedGroup.encodeEntry] at hahead
  simp only [List.append_assoc] at hahead
  rcases PackedRelocIterator.has_iff h.flags with ⟨hinfo, hdelta, hby, hhas⟩
  have hnotInfo : ¬ it.Has (relocationGroupedByInfoFlag abi) ↔ (!g.byInfo) = true := by simp [hinfo]
  have haddend : it.isUseRela ∧ it.Has (relocationGroupHasAddendFlag abi) ∧
      ¬ it.Has (relocationGroupedByAddendFlag abi) ↔ (g.hasAddend && !g.byAddend) = true := by
    rw [h.isUseRela, hhas, hby]
    cases hg : g.hasAddend with
    | true => simp [hrela hg]
    | false => simp
  -- the offset
  have hoffset : (if it.Has (relocationGroupedByOffsetDeltaFlag abi) then
        .ok { it with rOffset := it.rOffset + it.groupROffsetDelta }
      else it.readWhen mem True fun self val => { self with rOffset := self.rOffset + val }) =
      .ok { it with
        decoder := it.decoder.skip (encodeWhen (!g.byOffsetDelta) e.rOffsetDelta)
        rOffset := (g.step st e).rOffset } := by
    cases hby : g.byOffsetDelta with
    | true =>
        rw [if_pos (hdelta.mpr hby), h.delta hby, h.rOffset]
        simp [PackedGroup.step, encodeWhen, hby]
    | false =>
        rw [if_neg (hdelta.not.mpr (by simp [hby])), PackedRelocIterator.readWhen_eq (b := true)
          (x := e.rOffsetDelta) (by simp) (by simpa [hby] using hahead), h.rOffset]
        simp [PackedGroup.step, hby]
  rw [Yahfa.readPackedEntry, hoffset, Outcome.ok_bind]
  -- the info
  rw [PackedRelocIterator.readWhen_eq (by exact hnotInfo) hahead.skip, Outcome.ok_bind]
  have hread : (if !g.byInfo then
        { it with
          decoder := (it.decoder.skip (encodeWhen (!g.byOffsetDelta) e.rOffsetDelta)).skip
            (encodeWhen (!g.byInfo) e.rInfo)
          rOffset := (g.step st e).rOffset
          rInfo := e.rInfo }
      else
        { it with
          decoder := it.decoder.skip (encodeWhen (!g.byOffsetDelta) e.rOffsetDelta)
          rOffset := (g.step st e).rOffset }) =
      { it with
        decoder := (it.decoder.skip (encodeWhen (!g.byOffsetDelta) e.rOffsetDelta)).skip
          (encodeWhen (!g.byInfo) e.rInfo)
        rOffset := (g.step st e).rOffset
        rInfo := (g.step st e).rInfo } := by
    cases hg : g.byInfo <;> simp [PackedGroup.step, encodeWhen, hg, h.rInfo]
  rw [hread]
  -- the addend
  rw [PackedRelocIterator.readWhen_eq (by exact haddend) hahead.skip.skip, Outcome.ok_bind]
  cases hg : g.hasAddend && !g.byAddend <;>
    simp [PackedGroup.step, encodeWhen, hg, h.rAddend, h.isUseRela, RelState.rel,
      PackedRelocIterator.behindEntry, PackedGroup.encodeEntry]

/-- The iterator behind the fields of a group. -/
def PackedRelocIterator.entered (it : PackedRelocIterator abi) (g : PackedGroup abi)
    (st : RelState abi) : PackedRelocIterator abi :=
  { it with
    decoder := it.decoder.skip g.header
    groupSize := BitVec.ofNat _ g.entries.length
    groupFlags := g.flags
    groupROffsetDelta := if g.byOffsetDelta then g.rOffsetDelta else it.groupROffsetDelta
    rInfo := (g.enter st).rInfo
    rAddend := (g.enter st).rAddend
    relocationGroupIndex := 0 }

theorem BetweenGroups.entered (h : BetweenGroups good isUseRela (g :: gs) st it) :
    InGroup good isUseRela g g.entries gs (g.enter st) (it.entered g st) where
  ahead mem hmem := by
    have hahead := h.ahead mem hmem
    rw [encodeGroups, List.flatMap_cons, List.append_assoc] at hahead
    exact hahead.skip
  count := by
    have hcount := h.count
    simp only [entryCount, List.map_cons, List.sum_cons] at hcount
    simp only [PackedRelocIterator.entered, entryCount]
    omega
  index := by
    have hcount := h.count
    have hlt := it.relocationCount.isLt
    simp only [entryCount, List.map_cons, List.sum_cons] at hcount
    have hsize : g.entries.length < 2 ^ wordBits abi := by omega
    simp only [PackedRelocIterator.entered, BitVec.toNat_ofNat, Nat.mod_eq_of_lt hsize, Nat.zero_add]
  flags := rfl
  delta hby := by simp [PackedRelocIterator.entered, hby]
  rOffset := h.rOffset
  rInfo := rfl
  rAddend := rfl
  isUseRela := h.isUseRela

/-- The fields of a group are read. -/
theorem BetweenGroups.readGroupFields (h : BetweenGroups good isUseRela (g :: gs) st it)
    (hrela : g.hasAddend = true → isUseRela = true) {mem : Memory} (hmem : good mem) :
    xhElfPackedRelocIteratorReadGroupFields mem it = .ok (it.entered g st) := by
  have hahead := h.ahead mem hmem
  rw [encodeGroups, List.flatMap_cons, PackedGroup.header] at hahead
  simp only [List.append_assoc] at hahead
  have hsize : it.decoder.Ahead mem
      (encodeWhen true (BitVec.ofNat (wordBits abi) g.entries.length) ++ _) := hahead
  have hflags : (it.decoder.skip (encodeWhen true (BitVec.ofNat (wordBits abi)
      g.entries.length))).Ahead mem (encodeWhen true g.flags ++ _) := hsize.skip
  rw [xhElfPackedRelocIteratorReadGroupFields,
    PackedRelocIterator.readWhen_eq (by simp) hsize, Outcome.ok_bind, if_pos rfl,
    PackedRelocIterator.readWhen_eq (by simp) hflags, Outcome.ok_bind, if_pos rfl]
  have hdecoder := hflags.skip
  generalize hd : (it.decoder.skip (encodeWhen true (BitVec.ofNat (wordBits abi)
    g.entries.length))).skip (encodeWhen true g.flags) = d at hdecoder ⊢
  have hsame : ({ it with
      decoder := d
      groupSize := BitVec.ofNat _ g.entries.length
      groupFlags := g.flags } : PackedRelocIterator abi).groupFlags = g.flags := rfl
  rcases PackedRelocIterator.has_iff hsame with ⟨hinfo, hdelta, hby, hhas⟩
  -- the delta
  rw [PackedRelocIterator.readWhen_eq (by exact hdelta) hdecoder, Outcome.ok_bind]
  have hread : (if g.byOffsetDelta then
        { it with
          decoder := d.skip (encodeWhen g.byOffsetDelta g.rOffsetDelta)
          groupSize := BitVec.ofNat _ g.entries.length
          groupFlags := g.flags
          groupROffsetDelta := g.rOffsetDelta }
      else
        { it with
          decoder := d
          groupSize := BitVec.ofNat _ g.entries.length
          groupFlags := g.flags }) =
      { it with
        decoder := d.skip (encodeWhen g.byOffsetDelta g.rOffsetDelta)
        groupSize := BitVec.ofNat _ g.entries.length
        groupFlags := g.flags
        groupROffsetDelta := if g.byOffsetDelta then g.rOffsetDelta else it.groupROffsetDelta } := by
    cases hg : g.byOffsetDelta <;> simp [encodeWhen]
  rw [hread]
  -- the info
  rw [PackedRelocIterator.readWhen_eq (by exact hinfo) hdecoder.skip, Outcome.ok_bind]
  have hread : (if g.byInfo then
        { it with
          decoder := (d.skip (encodeWhen g.byOffsetDelta g.rOffsetDelta)).skip
            (encodeWhen g.byInfo g.rInfo)
          groupSize := BitVec.ofNat _ g.entries.length
          groupFlags := g.flags
          groupROffsetDelta := if g.byOffsetDelta then g.rOffsetDelta else it.groupROffsetDelta
          rInfo := g.rInfo }
      else
        { it with
          decoder := d.skip (encodeWhen g.byOffsetDelta g.rOffsetDelta)
          groupSize := BitVec.ofNat _ g.entries.length
          groupFlags := g.flags
          groupROffsetDelta := if g.byOffsetDelta then g.rOffsetDelta else it.groupROffsetDelta }) =
      { it with
        decoder := (d.skip (encodeWhen g.byOffsetDelta g.rOffsetDelta)).skip
          (encodeWhen g.byInfo g.rInfo)
        groupSize := BitVec.ofNat _ g.entries.length
        groupFlags := g.flags
        groupROffsetDelta := if g.byOffsetDelta then g.rOffsetDelta else it.groupROffsetDelta
        rInfo := (g.enter st).rInfo } := by
    cases hg : g.byInfo <;> simp [encodeWhen, PackedGroup.enter, hg, h.rInfo]
  rw [hread]
  -- the addend
  rw [if_neg ?_, PackedRelocIterator.readWhen_eq (b := g.hasAddend && g.byAddend)
    (by rw [Bool.and_eq_true]; exact and_congr hhas hby) hdecoder.skip.skip, Outcome.ok_bind]
  · have hall : ∀ it' : PackedRelocIterator abi, it'.groupFlags = g.flags →
        (it'.Has (relocationGroupHasAddendFlag abi) ↔ g.hasAddend = true) :=
      fun it' hit' => (PackedRelocIterator.has_iff hit').2.2.2
    cases hg : g.hasAddend <;> cases hb : g.byAddend <;>
      simp [hall, hg, hb, ← hd, encodeWhen, PackedGroup.enter, PackedGroup.header, h.rAddend,
        PackedRelocIterator.entered]
  · rintro ⟨hhasAddend, -, hnotRela⟩
    exact hnotRela (h.isUseRela.trans (hrela (hhas.mp hhasAddend)))

/-- Inside a group the next entry is read at once. -/
theorem InGroup.next_eq (h : InGroup good isUseRela g es gs st it) (hne : es ≠ []) (mem : Memory) :
    xhElfPackedRelocIteratorNext mem it = Yahfa.readPackedEntry mem it := by
  have hpos : 0 < es.length := List.length_pos_iff.mpr hne
  have hcount := h.count
  have hindex := h.index
  rw [xhElfPackedRelocIteratorNext, if_neg (by omega), if_neg (by omega)]

/-- The rest of a group, and what comes behind it. -/
theorem InGroup.yields (h : InGroup good isUseRela g es gs st it)
    (hrela : g.hasAddend = true → isUseRela = true)
    (hrest : ∀ st it, BetweenGroups good isUseRela gs st it →
      Yields xhElfPackedRelocIteratorNext good it (expandGroups isUseRela st gs)) :
    Yields xhElfPackedRelocIteratorNext good it
      ((g.states st es).map (·.rel isUseRela) ++ expandGroups isUseRela (es.foldl g.step st) gs) := by
  induction es generalizing st it with
  | nil => exact hrest st it h.between
  | cons e es ih =>
      refine .item (fun mem hmem => ?_) (ih h.behindEntry)
      rw [h.next_eq (List.cons_ne_nil e es), h.readPackedEntry hrela hmem]

/-- The groups of a section give their entries. -/
theorem BetweenGroups.yields (h : BetweenGroups good isUseRela gs st it)
    (hrela : ∀ g ∈ gs, g.hasAddend = true → isUseRela = true) :
    Yields xhElfPackedRelocIteratorNext good it (expandGroups isUseRela st gs) := by
  induction gs generalizing st it with
  | nil =>
      refine .done fun mem _ => ?_
      rw [xhElfPackedRelocIteratorNext, if_pos (by simpa [entryCount] using h.count.le)]
  | cons g gs ih =>
      have hg := hrela g List.mem_cons_self
      have hyields := h.entered.yields hg fun st it hbetween =>
        ih hbetween fun g' hg' => hrela g' (List.mem_cons_of_mem g hg')
      refine hyields.of_next_eq fun mem hmem => ?_
      -- the fields of the group are read along with its first entry
      have hpos : 0 < g.entries.length := List.length_pos_iff.mpr g.entries_ne_nil
      have hcount := h.count
      simp only [entryCount, List.map_cons, List.sum_cons] at hcount
      rw [h.entered.next_eq g.entries_ne_nil, xhElfPackedRelocIteratorNext, if_neg (by omega),
        if_pos h.index, h.readGroupFields hg hmem, Outcome.ok_bind]

/-- The iterator over the bytes of a section stands in front of its groups. -/
theorem PackedSection.init (S : PackedSection abi isUseRela) (rel : Nat) {relSz : Nat}
    (hsz : S.encode.length ≤ relSz) :
    ∃ it, (∀ mem, BytesAt mem rel S.encode →
        xhElfPackedRelocIteratorInit abi mem rel relSz isUseRela = .ok it) ∧
      BetweenGroups (fun mem => BytesAt mem rel S.encode) isUseRela S.groups ⟨S.rOffset, 0, 0⟩ it := by
  have hahead : ∀ mem, BytesAt mem rel S.encode →
      (Sleb128Decoder.mk rel (rel + relSz)).Ahead mem
        (encodeWord (BitVec.ofNat (wordBits abi) (entryCount S.groups)) ++
          (encodeWord S.rOffset ++ encodeGroups S.groups)) := by
    intro mem hmem
    rw [← List.append_assoc]
    exact ⟨hmem, Nat.add_le_add_left hsz rel⟩
  refine ⟨{ PackedRelocIterator.zero abi rel relSz isUseRela with
    decoder := ((Sleb128Decoder.mk rel (rel + relSz)).skip
      (encodeWord (BitVec.ofNat (wordBits abi) (entryCount S.groups)))).skip (encodeWord S.rOffset)
    relocationCount := BitVec.ofNat _ (entryCount S.groups)
    rOffset := S.rOffset }, fun mem hmem => ?_, ?_⟩
  · simp only [xhElfPackedRelocIteratorInit, PackedRelocIterator.zero,
      xhElfSleb128DecoderNext_encodeWord (hahead mem hmem),
      xhElfSleb128DecoderNext_encodeWord (hahead mem hmem).skip]
  · refine ⟨fun mem hmem => (hahead mem hmem).skip.skip, ?_, rfl, rfl, rfl, rfl, rfl⟩
    simp only [PackedRelocIterator.zero, BitVec.toNat_ofNat, Nat.mod_eq_of_lt S.entryCount_lt,
      Nat.zero_add]

end Section

/-! ## Whole sections -/

section RoundTrip

variable {abi : Abi} {isUseRela : Bool} {mem mem' : Memory} {rel relSz : Nat}

variable (abi) in
/-- All entries the packed iterator gives. -/
def packedRelocs (mem : Memory) (rel relSz : Nat) (isUseRela : Bool) (fuel : Nat) :
    Option (List (ElfRel abi)) :=
  match xhElfPackedRelocIteratorInit abi mem rel relSz isUseRela with
  | .ok it => drain (xhElfPackedRelocIteratorNext mem) fuel it
  | .failed => none
  | .undefined => none

theorem PackedSection.hasAddend_rela (S : PackedSection abi isUseRela) :
    ∀ g ∈ S.groups, g.hasAddend = true → isUseRela = true := by
  intro g hg hhas
  rcases S.rela with hrela | hnone
  · exact hrela
  · rw [hnone g hg] at hhas
    cases hhas

/-- The packed iterator gives the entries of any section that stands in memory in
the packed format. -/
theorem packedReloc_roundTrip (S : PackedSection abi isUseRela) (hbytes : BytesAt mem rel S.encode)
    (hsz : S.encode.length ≤ relSz) :
    Loop.Returns (packedRelocs abi mem rel relSz isUseRela) S.expand := by
  rcases S.init rel hsz with ⟨it, hinit, hbetween⟩
  rcases (hbetween.yields S.hasAddend_rela).drain_eq hbytes with ⟨least, hleast⟩
  refine ⟨least, fun fuel hfuel => ?_⟩
  rw [packedRelocs, hinit mem hbytes]
  exact hleast fuel hfuel

/-- Two groups: one that shares offset delta and info, one that shares nothing. -/
def twoGroups : PackedSection .arm true where
  rOffset := 0x1000
  groups := [
    ⟨true, true, false, false, 4, 0x215, 0, [⟨0, 0, 0⟩, ⟨0, 0, 0⟩], by decide⟩,
    ⟨false, false, false, true, 0, 0, 0, [⟨0x20, 0x302, -8⟩], by decide⟩]
  entryCount_lt := by decide
  rela := .inl rfl

/-- Two groups, written to memory and read back. -/
theorem packedReloc_roundTrip_two :
    Loop.Returns
      (packedRelocs .arm (write (fun _ => 0) 0x100 twoGroups.encode) 0x100 twoGroups.encode.length true)
      [⟨0x1004, 0x215, some 0⟩, ⟨0x1008, 0x215, some 0⟩, ⟨0x1028, 0x302, some (-8)⟩] :=
  packedReloc_roundTrip twoGroups (bytesAt_write _ _ _) (le_refl _)

end RoundTrip

/-! ## Reading nothing but the section -/

section Inside

variable {abi : Abi} {mem mem' : Memory} {it it' it'' : PackedRelocIterator abi}

/-- The memories agree in front of the decoder. -/
def Sleb128Decoder.Agree (self : Sleb128Decoder) (mem mem' : Memory) : Prop :=
  ∀ a, self.cur ≤ a → a < self.endAddr → mem a = mem' a

theorem sleb128Loop_congr {n shift cur : Nat} {value : Word abi}
    (h : ∀ a, cur ≤ a → a < cur + n → mem a = mem' a) :
    sleb128Loop abi mem n value shift cur = sleb128Loop abi mem' n value shift cur := by
  induction n generalizing value shift cur with
  | zero => rfl
  | succ n ih =>
      have hrest : ∀ a, cur + 1 ≤ a → a < cur + 1 + n → mem a = mem' a :=
        fun a hle hlt => h a (by omega) (by omega)
      simp only [sleb128Loop, h cur (le_refl cur) (by omega), ih hrest]

theorem sleb128Loop_cur {n shift cur cur' : Nat} {value value' : Word abi}
    (h : sleb128Loop abi mem n value shift cur = .ok (value', cur')) : cur ≤ cur' := by
  induction n generalizing value shift cur with
  | zero => cases h
  | succ n ih =>
      rw [sleb128Loop] at h
      split at h
      · cases h
      · dsimp only at h
        split at h
        · exact Nat.le_of_succ_le (ih h)
        · split at h <;> (cases h; exact Nat.le_succ cur)

variable (abi) in
theorem xhElfSleb128DecoderNext_congr {self : Sleb128Decoder} (h : self.Agree mem mem') :
    xhElfSleb128DecoderNext abi mem self = xhElfSleb128DecoderNext abi mem' self := by
  have hloop := @sleb128Loop_congr abi mem mem' (self.endAddr - self.cur) 0 self.cur 0
    fun a hle hlt => h a hle (by omega)
  rw [xhElfSleb128DecoderNext, hloop, xhElfSleb128DecoderNext]

theorem xhElfSleb128DecoderNext_cur {self self' : Sleb128Decoder} {x : Word abi}
    (h : xhElfSleb128DecoderNext abi mem self = .ok (x, self')) :
    self.cur ≤ self'.cur ∧ self'.endAddr = self.endAddr := by
  rw [xhElfSleb128DecoderNext] at h
  split at h
  · next hloop =>
    cases h
    exact ⟨sleb128Loop_cur hloop, rfl⟩
  · cases h
  · cases h

/-- What a step of the iterator leaves alone; it may pass `k` entries. -/
structure Passes (k : Nat) (it it' : PackedRelocIterator abi) : Prop where
  cur : it.decoder.cur ≤ it'.decoder.cur
  endAddr : it'.decoder.endAddr = it.decoder.endAddr
  relocationCount : it'.relocationCount = it.relocationCount
  relocationIndex : it'.relocationIndex = it.relocationIndex + k

theorem Passes.trans {k k' : Nat} (h : Passes k it it') (h' : Passes k' it' it'') :
    Passes (k + k') it it'' where
  cur := h.cur.trans h'.cur
  endAddr := h'.endAddr.trans h.endAddr
  relocationCount := h'.relocationCount.trans h.relocationCount
  relocationIndex := by rw [h'.relocationIndex, h.relocationIndex, Nat.add_assoc]

/-- A step that looks only at the bytes in front of the decoder. -/
structure StaysInside (k : Nat) {β : Type} (out : β → PackedRelocIterator abi)
    (f : Memory → PackedRelocIterator abi → Outcome β) : Prop where
  congr : ∀ {mem mem' it}, it.decoder.Agree mem mem' → f mem it = f mem' it
  passes : ∀ {mem it r}, f mem it = .ok r → Passes k it (out r)

theorem passes_of_eq {k : Nat} (hdecoder : it'.decoder = it.decoder)
    (hcount : it'.relocationCount = it.relocationCount)
    (hindex : it'.relocationIndex = it.relocationIndex + k) : Passes k it it' :=
  ⟨by rw [hdecoder], by rw [hdecoder], hcount, hindex⟩

theorem Passes.agree {k : Nat} (h : Passes k it it') (hmem : it.decoder.Agree mem mem') :
    it'.decoder.Agree mem mem' :=
  fun a hle hlt => hmem a (h.cur.trans hle) (h.endAddr ▸ hlt)

section Rules

variable {β : Type} {out : β → PackedRelocIterator abi} {k m : Nat}
  {f : Memory → PackedRelocIterator abi → Outcome (PackedRelocIterator abi)}
  {g g' : Memory → PackedRelocIterator abi → Outcome β}

theorem StaysInside.bind (hf : StaysInside k (fun it => it) f) (hg : StaysInside m out g) :
    StaysInside (k + m) out fun mem it => f mem it >>= g mem where
  congr {mem mem' it} hmem := by
    rw [hf.congr hmem]
    cases hstep : f mem' it with
    | ok it' => exact hg.congr ((hf.passes hstep).agree hmem)
    | failed => rfl
    | undefined => rfl
  passes {mem it r} h := by
    cases hstep : f mem it with
    | ok it' =>
        rw [hstep] at h
        exact (hf.passes hstep).trans (hg.passes h)
    | failed =>
        rw [hstep] at h
        cases h
    | undefined =>
        rw [hstep] at h
        cases h

theorem StaysInside.ite {c : PackedRelocIterator abi → Prop} [DecidablePred c]
    (hg : StaysInside k out g) (hg' : StaysInside k out g') :
    StaysInside k out fun mem it => if c it then g mem it else g' mem it where
  congr {mem mem' it} hmem := by rw [hg.congr hmem, hg'.congr hmem]
  passes {mem it r} h := by
    split at h
    · exact hg.passes h
    · exact hg'.passes h

theorem StaysInside.failed : StaysInside k out fun _ _ => .failed where
  congr _ := rfl
  passes h := by cases h

theorem StaysInside.ok {r : PackedRelocIterator abi → β} (h : ∀ it, Passes k it (out (r it))) :
    StaysInside k out fun _ it => .ok (r it) where
  congr _ := rfl
  passes {mem it r'} heq := by
    cases heq
    exact h it

end Rules

/-- Reading a number stays inside. -/
theorem staysInside_readWhen {c : PackedRelocIterator abi → Prop} [DecidablePred c]
    {set : PackedRelocIterator abi → Word abi → PackedRelocIterator abi}
    (hset : ∀ it val, Passes 0 it (set it val)) :
    StaysInside 0 (fun it => it) fun mem it => it.readWhen mem (c it) set where
  congr {mem mem' it} hmem := by
    rw [PackedRelocIterator.readWhen, xhElfSleb128DecoderNext_congr abi hmem]
    rfl
  passes {mem it r} h := by
    rw [PackedRelocIterator.readWhen] at h
    split at h
    · cases hnext : xhElfSleb128DecoderNext abi mem it.decoder with
      | ok x =>
          rw [hnext] at h
          cases h
          have hcur := xhElfSleb128DecoderNext_cur hnext
          have hpasses := hset { it with decoder := x.2 } x.1
          exact ⟨hcur.1.trans hpasses.cur, hpasses.endAddr.trans hcur.2, hpasses.relocationCount,
            hpasses.relocationIndex⟩
      | failed =>
          rw [hnext] at h
          cases h
      | undefined =>
          rw [hnext] at h
          cases h
    · cases h
      exact ⟨le_refl _, rfl, rfl, rfl⟩

theorem staysInside_readGroupFields :
    StaysInside 0 (fun it : PackedRelocIterator abi => it)
      xhElfPackedRelocIteratorReadGroupFields := by
  refine .bind (k := 0) (m := 0) (staysInside_readWhen fun it val => passes_of_eq rfl rfl rfl) ?_
  refine .bind (k := 0) (m := 0) (staysInside_readWhen fun it val => passes_of_eq rfl rfl rfl) ?_
  refine .bind (k := 0) (m := 0) (staysInside_readWhen fun it val => passes_of_eq rfl rfl rfl) ?_
  refine .bind (k := 0) (m := 0) (staysInside_readWhen fun it val => passes_of_eq rfl rfl rfl) ?_
  refine .ite .failed ?_
  refine .bind (k := 0) (m := 0) (staysInside_readWhen fun it val => passes_of_eq rfl rfl rfl) ?_
  exact .ok fun it => passes_of_eq rfl rfl rfl

theorem staysInside_readPackedEntry :
    StaysInside 1 (Prod.snd : ElfRel abi × PackedRelocIterator abi → _) readPackedEntry := by
  refine .bind (k := 0) (m := 1) (.ite (.ok fun it => passes_of_eq rfl rfl rfl)
    (staysInside_readWhen fun it val => passes_of_eq rfl rfl rfl)) ?_
  refine .bind (k := 0) (m := 1) (staysInside_readWhen fun it val => passes_of_eq rfl rfl rfl) ?_
  refine .bind (k := 0) (m := 1) (staysInside_readWhen fun it val => passes_of_eq rfl rfl rfl) ?_
  exact .ok fun it => passes_of_eq rfl rfl rfl

/-- An entry is one entry on. -/
theorem staysInside_next :
    StaysInside 1 (Prod.snd : ElfRel abi × PackedRelocIterator abi → _)
      xhElfPackedRelocIteratorNext := by
  refine .ite .failed (.ite ?_ staysInside_readPackedEntry)
  exact .bind (k := 0) (m := 1) staysInside_readGroupFields staysInside_readPackedEntry

variable {rel relSz : Nat} {isUseRela : Bool}

variable (abi isUseRela) in
/-- The start of the section is read inside it. -/
theorem xhElfPackedRelocIteratorInit_inside
    (h : ∀ a, (Span.mk rel relSz).Contains a → mem a = mem' a) :
    xhElfPackedRelocIteratorInit abi mem rel relSz isUseRela =
        xhElfPackedRelocIteratorInit abi mem' rel relSz isUseRela ∧
      ∀ it, xhElfPackedRelocIteratorInit abi mem rel relSz isUseRela = .ok it →
        it.decoder.Agree mem mem' ∧ it.relocationIndex = 0 := by
  have hagree : (Sleb128Decoder.mk rel (rel + relSz)).Agree mem mem' := fun a hle hlt => h a ⟨hle, hlt⟩
  have hend : (Sleb128Decoder.mk (rel + relSz) (rel + relSz)).Agree mem mem' :=
    fun a hle hlt => absurd hlt (not_lt.mpr hle)
  have hfirst := xhElfSleb128DecoderNext_congr abi hagree
  simp only [xhElfPackedRelocIteratorInit, PackedRelocIterator.zero, hfirst]
  cases hcount : xhElfSleb128DecoderNext abi mem' ⟨rel, rel + relSz⟩ with
  | failed =>
      refine ⟨rfl, fun it hit => ?_⟩
      cases hit
      exact ⟨hend, rfl⟩
  | undefined => exact ⟨rfl, fun it hit => by cases hit⟩
  | ok x =>
      -- the second number stands behind the first
      rcases xhElfSleb128DecoderNext_cur hcount with ⟨hcur, hx⟩
      have hagree' : x.2.Agree mem mem' := fun a hle hlt => hagree a (hcur.trans hle) (hx ▸ hlt)
      have hsecond := xhElfSleb128DecoderNext_congr abi hagree'
      simp only [hsecond]
      cases hoffset : xhElfSleb128DecoderNext abi mem' x.2 with
      | failed =>
          refine ⟨trivial, fun it hit => ?_⟩
          cases hit
          exact ⟨hend, rfl⟩
      | undefined => exact ⟨trivial, fun it hit => by cases hit⟩
      | ok y =>
          refine ⟨trivial, fun it hit => ?_⟩
          cases hit
          rcases xhElfSleb128DecoderNext_cur hoffset with ⟨hcur', hy⟩
          exact ⟨fun a hle hlt => hagree' a (hcur'.trans hle) (hy ▸ hlt), rfl⟩

/-- Whatever bytes there are, the packed iterator looks at none outside the section,
and it gives at most as many entries as the first number says, with no more calls
than that. -/
theorem packedRelocs_inside (h : ∀ a, (Span.mk rel relSz).Contains a → mem a = mem' a) :
    (∀ fuel, packedRelocs abi mem rel relSz isUseRela fuel =
      packedRelocs abi mem' rel relSz isUseRela fuel) ∧
    ∀ it, xhElfPackedRelocIteratorInit abi mem rel relSz isUseRela = .ok it →
      ∀ fuel, it.relocationCount.toNat < fuel →
        packedRelocs abi mem rel relSz isUseRela fuel =
          packedRelocs abi mem rel relSz isUseRela (it.relocationCount.toNat + 1) ∧
        ∀ l, packedRelocs abi mem rel relSz isUseRela fuel = some l →
          l.length ≤ it.relocationCount.toNat := by
  rcases xhElfPackedRelocIteratorInit_inside abi isUseRela h with ⟨hinit, hinside⟩
  constructor
  · intro fuel
    simp only [packedRelocs, ← hinit]
    cases hit : xhElfPackedRelocIteratorInit abi mem rel relSz isUseRela with
    | failed => rfl
    | undefined => rfl
    | ok it =>
        refine drain_congr (P := fun it => it.decoder.Agree mem mem')
          (fun it hagree => staysInside_next.congr hagree) (fun it a it' hagree hnext => ?_)
          (hinside it hit).1 fuel
        exact (staysInside_next.passes hnext).agree hagree
  · intro it hit fuel hfuel
    have hzero := (hinside it hit).2
    -- every entry is one entry on
    have hlower : ∀ (it : PackedRelocIterator abi) a it',
        xhElfPackedRelocIteratorNext mem it = .ok (a, it') →
          it'.relocationCount.toNat - it'.relocationIndex <
            it.relocationCount.toNat - it.relocationIndex := by
      intro it a it' hnext
      have hpasses := staysInside_next.passes hnext
      have hindex := hpasses.relocationIndex
      have hless : it.relocationIndex < it.relocationCount.toNat := by
        by_contra hle
        rw [xhElfPackedRelocIteratorNext, if_pos (not_lt.mp hle)] at hnext
        cases hnext
      rw [hpasses.relocationCount]
      dsimp only at hindex
      omega
    have hfuel' : it.relocationCount.toNat - it.relocationIndex < fuel := by omega
    have hdrain := drain_of_measure
      (m := fun it : PackedRelocIterator abi => it.relocationCount.toNat - it.relocationIndex)
      hlower hfuel'
    simp only [hzero, Nat.sub_zero] at hdrain
    simpa only [packedRelocs, hit] using hdrain

/-- The two groups, with zeros around them and with bytes that never end a number. -/
theorem packedRelocs_inside_two :
    let bytes := twoGroups.encode
    let relocs := fun b =>
      packedRelocs .arm (write (fun _ => b) 0x100 bytes) 0x100 bytes.length true
    (∀ fuel, relocs 0 fuel = relocs 0x80 fuel) ∧
      ∀ fuel, 3 < fuel → relocs 0 fuel = relocs 0 4 ∧
        ∀ l, relocs 0 fuel = some l → l.length ≤ 3 := by
  intro bytes relocs
  have hagree : ∀ a, (Span.mk 0x100 bytes.length).Contains a →
      write (fun _ => 0) 0x100 bytes a = write (fun _ => 0x80) 0x100 bytes a := by
    rintro a ⟨hle, hlt⟩
    rcases Nat.exists_eq_add_of_le hle with ⟨i, rfl⟩
    have hi : i < bytes.length := Nat.lt_of_add_lt_add_left hlt
    rw [write_apply_add hi, write_apply_add hi]
  rcases @packedRelocs_inside .arm _ _ _ _ true hagree with ⟨hsame, hcount⟩
  refine ⟨hsame, fun fuel hfuel => ?_⟩
  have hthree : (match xhElfPackedRelocIteratorInit .arm (write (fun _ => 0) 0x100 bytes) 0x100
      bytes.length true with
    | .ok it => it.relocationCount.toNat
    | _ => 0) = 3 := by decide +kernel
  cases hit : xhElfPackedRelocIteratorInit .arm (write (fun _ => 0) 0x100 bytes) 0x100
      bytes.length true with
  | ok it =>
      rw [hit] at hthree
      have hcounted : it.relocationCount.toNat = 3 := hthree
      have hmost := hcount it hit fuel (hcounted.symm ▸ hfuel)
      rw [hcounted] at hmost
      exact hmost
  | failed => rw [hit] at hthree; cases hthree
  | undefined => rw [hit] at hthree; cases hthree

end Inside

end Yahfa
