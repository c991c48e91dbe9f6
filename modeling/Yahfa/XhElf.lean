import Yahfa.Common
import Yahfa.Base.CString
import Yahfa.Base.HashTable

/-!
# `xh_elf_t`: finding symbols by name

What `xh_elf.c` knows of a loaded library is where its tables are in memory. A
symbol is found through the hash table of the library, one of two formats; the loops
have no bound of their own, so that a lookup has a result only with enough fuel.

`findSymidxByName_finds` says what a lookup comes to when the table is one for the
symbols: it ends, and with the index of a symbol that has the name, if there is one.
-/

namespace Yahfa

open Bytes Loop HashTable

/-- `xh_elf_t`. A null pointer is 0; `pathname` is one until `xh_elf_init` has set it. -/
structure XhElf where
  pathname : Option String
  baseAddr : Nat
  biasAddr : Nat
  ehdr : Nat
  phdr : Nat
  dyn : Nat
  dynSz : Nat
  strtab : Nat
  symtab : Nat
  relplt : Nat
  relpltSz : Nat
  reldyn : Nat
  reldynSz : Nat
  relandroid : Nat
  relandroidSz : Nat
  bucket : Nat
  bucketCnt : Nat
  chain : Nat
  chainCnt : Nat
  symoffset : Nat
  bloom : Nat
  bloomSz : Nat
  bloomShift : Nat
  isUseRela : Bool
  isUseGnuHash : Bool
deriving DecidableEq, Repr

/-- The `uint32_t` at an address. -/
def readU32 (mem : Memory) (addr : Nat) : Nat := readWord mem addr 4

/-- `sizeof(ElfW(Sym))`. -/
def symSize (abi : Abi) : Nat := if pointerSize abi = 8 then 24 else 16

/-- The string at an address is this one, as `strcmp` has it. -/
def StrEq (mem : Memory) (addr : Nat) (text : List UInt8) : Prop := BytesAt mem addr (text ++ [0])

instance (mem : Memory) (addr : Nat) (text : List UInt8) : Decidable (StrEq mem addr text) :=
  inferInstanceAs (Decidable (BytesAt _ _ _))

/-! ## Hash functions -/

/-- `xh_elf_hash`. -/
def xhElfHash (name : List UInt8) : UInt32 :=
  name.foldl (fun h c =>
    let h := (h <<< 4) + c.toUInt32
    let g := h &&& 0xf0000000
    let h := h ^^^ g
    h ^^^ (g >>> 24)) 0

/-- `xh_elf_gnu_hash`. -/
def xhElfGnuHash (name : List UInt8) : UInt32 :=
  name.foldl (fun h c => h + ((h <<< 5) + c.toUInt32)) 5381

/-! ## Lookups -/

section Lookup

variable (abi : Abi) (mem : Memory) (self : XhElf) (symbol : List UInt8)

/-- `self->strtab + self->symtab[i].st_name`. -/
def XhElf.symName (i : Nat) : Nat := self.strtab + readU32 mem (self.symtab + i * symSize abi)

/-- The comparison of `symbol` with the name of a symbol. -/
def XhElf.nameIs (i : Nat) : Bool := StrEq mem (self.symName abi mem i) symbol

/-- `self->bucket[b]`. -/
def XhElf.bucketAt (b : Nat) : Nat := readU32 mem (self.bucket + 4 * b)

/-- `self->chain[i]`. -/
def XhElf.chainAt (i : Nat) : Nat := readU32 mem (self.chain + 4 * i)

/-- `xh_elf_hash_lookup`; no result for the remainder by 0. -/
def xhElfHashLookup (fuel : Nat) : Option (Option Nat) :=
  if self.bucketCnt = 0 then none
  else
    run (chainRound (self.chainAt mem) (self.nameIs abi mem symbol)) fuel
      (self.bucketAt mem ((xhElfHash symbol).toNat % self.bucketCnt))

/-- `elfclass_bits`. -/
def elfclassBits : Nat := 8 * pointerSize abi

/-- The test of the bloom filter of a library for a hash. -/
def XhElf.bloomHas (hash : Nat) : Prop :=
  let word := readAddr abi mem
    (self.bloom + pointerSize abi * (hash / elfclassBits abi % self.bloomSz))
  let mask := 2 ^ (hash % elfclassBits abi) |||
    2 ^ ((hash >>> self.bloomShift) % elfclassBits abi)
  word &&& mask = mask

instance (hash : Nat) : Decidable (self.bloomHas abi mem hash) := inferInstanceAs (Decidable (_ = _))

/-- The hash stored for a symbol, `self->chain[i - self->symoffset]`. -/
def XhElf.symhash (i : Nat) : Nat := self.chainAt mem (i - self.symoffset)

/-- The comparison of `symbol` with a symbol, hash first. -/
def XhElf.gnuNameIs (i : Nat) : Bool :=
  (xhElfGnuHash symbol).toNat ||| 1 = self.symhash mem i ||| 1 ∧ self.nameIs abi mem symbol i

/-- `xh_elf_gnu_hash_lookup_def`; no result for the remainder by 0 and the shift by
all the bits of the hash. -/
def xhElfGnuHashLookupDef (fuel : Nat) : Option (Option Nat) :=
  let hash := (xhElfGnuHash symbol).toNat
  if self.bloomSz = 0 ∨ self.bucketCnt = 0 ∨ 32 ≤ self.bloomShift then none
  -- if at least one bit is not set, this symbol is surely missing
  else if ¬ self.bloomHas abi mem hash then some none
  else
    let i := self.bucketAt mem (hash % self.bucketCnt)
    -- ignore STN_UNDEF
    if i < self.symoffset then some none
    else
      -- chain ends with an element with the lowest bit set to 1
      run (groupRound (self.gnuNameIs abi mem symbol) fun i => self.symhash mem i % 2 = 1) fuel i

/-- `xh_elf_gnu_hash_lookup_undef`. -/
def xhElfGnuHashLookupUndef : Option Nat :=
  (List.range self.symoffset).find? (self.nameIs abi mem symbol)

/-- `xh_elf_gnu_hash_lookup`. -/
def xhElfGnuHashLookup (fuel : Nat) : Option (Option Nat) :=
  match xhElfGnuHashLookupDef abi mem self symbol fuel with
  | none => none
  | some (some i) => some (some i)
  | some none => some (xhElfGnuHashLookupUndef abi mem self symbol)

/-- `xh_elf_find_symidx_by_name`. -/
def xhElfFindSymidxByName (fuel : Nat) : Option (Option Nat) :=
  if self.isUseGnuHash then xhElfGnuHashLookup abi mem self symbol fuel
  else xhElfHashLookup abi mem self symbol fuel

end Lookup

/-! ## Tables for some symbols -/

section Tables

variable {abi : Abi} {mem : Memory} {elf : XhElf} {count : Nat} {name : Nat → List UInt8}
  {symbol : List UInt8}

/-- The symbol table holds these symbols. -/
structure SymbolsAt (abi : Abi) (mem : Memory) (elf : XhElf) (count : Nat)
    (name : Nat → List UInt8) : Prop where
  zero_notMem : ∀ i < count, 0 ∉ name i
  names : ∀ i < count, StrEq mem (elf.symName abi mem i) (name i)

/-- `DT_HASH` is a table for these symbols. -/
structure HashAt (mem : Memory) (elf : XhElf) (count : Nat) (name : Nat → List UInt8) :
    Prop where
  bucketCnt_ne_zero : elf.bucketCnt ≠ 0
  chained : Chained name (fun k => (xhElfHash k).toNat % elf.bucketCnt) count (elf.bucketAt mem)
    (elf.chainAt mem)

/-- `DT_GNU_HASH` is a table for these symbols. -/
structure GnuHashAt (abi : Abi) (mem : Memory) (elf : XhElf) (count : Nat)
    (name : Nat → List UInt8) : Prop where
  bucketCnt_ne_zero : elf.bucketCnt ≠ 0
  bloomSz_ne_zero : elf.bloomSz ≠ 0
  bloomShift_lt : elf.bloomShift < 32
  symoffset_le : elf.symoffset ≤ count
  grouped : Grouped name (fun k => (xhElfGnuHash k).toNat % elf.bucketCnt) elf.symoffset count
    (elf.bucketAt mem) fun i => elf.symhash mem i % 2 = 1
  symhash : ∀ i, elf.symoffset ≤ i → i < count →
    (xhElfGnuHash (name i)).toNat ||| 1 = elf.symhash mem i ||| 1
  bloom : ∀ i, elf.symoffset ≤ i → i < count →
    elf.bloomHas abi mem (xhElfGnuHash (name i)).toNat

/-- The table the library has is one for these symbols. -/
def TableAt (abi : Abi) (mem : Memory) (elf : XhElf) (count : Nat) (name : Nat → List UInt8) :
    Prop :=
  if elf.isUseGnuHash then GnuHashAt abi mem elf count name else HashAt mem elf count name

/-- The comparison of names is one. -/
theorem SymbolsAt.nameIs_iff (h : SymbolsAt abi mem elf count name) (hsymbol : 0 ∉ symbol) {i : Nat}
    (hi : i < count) : elf.nameIs abi mem symbol i = true ↔ name i = symbol := by
  have hname := h.names i hi
  constructor
  · intro hstr
    exact CString.text_unique (h.zero_notMem i hi) hsymbol hname (of_decide_eq_true hstr)
  · rintro rfl
    exact decide_eq_true hname

theorem xhElfHashLookup_finds (hsyms : SymbolsAt abi mem elf count name)
    (htable : HashAt mem elf count name) (hsymbol : 0 ∉ symbol) :
    ∃ r, Returns (xhElfHashLookup abi mem elf symbol) r ∧
      Finds name (fun i => 0 < i ∧ i < count) symbol r := by
  rcases chainRound_finds htable.chained fun i hi => hsyms.nameIs_iff hsymbol hi with ⟨r, hr, hfinds⟩
  refine ⟨r, hr.congr fun fuel => ?_, hfinds⟩
  simp only [xhElfHashLookup, if_neg htable.bucketCnt_ne_zero]

/-- The scan of the symbols that the table leaves out. -/
theorem xhElfGnuHashLookupUndef_finds (hsyms : SymbolsAt abi mem elf count name)
    (hle : elf.symoffset ≤ count) (hsymbol : 0 ∉ symbol) :
    Finds name (fun i => i < elf.symoffset) symbol (xhElfGnuHashLookupUndef abi mem elf symbol) := by
  refine finds_find? (fun i hi hhit => ?_) fun i hi hname => ?_
  · have hlt : i < elf.symoffset := List.mem_range.mp hi
    exact ⟨hlt, (hsyms.nameIs_iff hsymbol (lt_of_lt_of_le hlt hle)).mp hhit⟩
  · exact ⟨List.mem_range.mpr hi, (hsyms.nameIs_iff hsymbol (lt_of_lt_of_le hi hle)).mpr hname⟩

theorem xhElfGnuHashLookupDef_finds (hsyms : SymbolsAt abi mem elf count name)
    (htable : GnuHashAt abi mem elf count name) (hsymbol : 0 ∉ symbol) :
    ∃ r, Returns (xhElfGnuHashLookupDef abi mem elf symbol) r ∧
      Finds name (fun i => elf.symoffset ≤ i ∧ i < count) symbol r := by
  have hdefined : ¬ (elf.bloomSz = 0 ∨ elf.bucketCnt = 0 ∨ 32 ≤ elf.bloomShift) := by
    have hbloom := htable.bloomSz_ne_zero
    have hbucket := htable.bucketCnt_ne_zero
    have hshift := htable.bloomShift_lt
    omega
  by_cases hbloom : elf.bloomHas abi mem (xhElfGnuHash symbol).toNat
  · by_cases hlt : elf.bucketAt mem ((xhElfGnuHash symbol).toNat % elf.bucketCnt) < elf.symoffset
    · -- an empty bucket
      refine ⟨none, ⟨0, fun fuel _ => ?_⟩, htable.grouped.finds_none hlt⟩
      simp only [xhElfGnuHashLookupDef, if_neg hdefined, hbloom, not_true_eq_false, if_false, hlt,
        if_true]
    · -- hash and name are compared, and the same name has the same hash
      have hhit : ∀ i, elf.symoffset ≤ i → i < count →
          (elf.gnuNameIs abi mem symbol i = true ↔ name i = symbol) := by
        intro i hstart hcount
        simp only [XhElf.gnuNameIs, decide_eq_true_eq, hsyms.nameIs_iff hsymbol hcount]
        constructor
        · exact And.right
        · rintro rfl
          exact ⟨htable.symhash i hstart hcount, rfl⟩
      rcases groupRound_finds htable.grouped (not_lt.mp hlt) hhit with ⟨r, hr, hfinds⟩
      refine ⟨r, hr.congr fun fuel => ?_, hfinds⟩
      simp only [xhElfGnuHashLookupDef, if_neg hdefined, hbloom, not_true_eq_false, if_false, hlt]
  · -- surely missing
    refine ⟨none, ⟨0, fun fuel _ => ?_⟩, ?_⟩
    · simp only [xhElfGnuHashLookupDef, if_neg hdefined, hbloom, not_false_eq_true, if_true]
    · rintro i ⟨hstart, hcount⟩ rfl
      exact hbloom (htable.bloom i hstart hcount)

theorem xhElfGnuHashLookup_finds (hsyms : SymbolsAt abi mem elf count name)
    (htable : GnuHashAt abi mem elf count name) (hsymbol : 0 ∉ symbol) :
    ∃ r, Returns (xhElfGnuHashLookup abi mem elf symbol) r ∧
      Finds name (fun i => i < count) symbol r := by
  rcases xhElfGnuHashLookupDef_finds hsyms htable hsymbol with ⟨r, ⟨least, hr⟩, hfinds⟩
  cases r with
  | some i =>
      refine ⟨some i, ⟨least, fun fuel hfuel => ?_⟩, hfinds.1.2, hfinds.2⟩
      simp only [xhElfGnuHashLookup, hr fuel hfuel]
  | none =>
      refine ⟨xhElfGnuHashLookupUndef abi mem elf symbol, ⟨least, fun fuel hfuel => ?_⟩, ?_⟩
      · simp only [xhElfGnuHashLookup, hr fuel hfuel]
      -- what is in neither part is not there
      have hundef := xhElfGnuHashLookupUndef_finds hsyms htable.symoffset_le hsymbol
      cases hr' : xhElfGnuHashLookupUndef abi mem elf symbol with
      | some i =>
          rw [hr'] at hundef
          exact ⟨lt_of_lt_of_le hundef.1 htable.symoffset_le, hundef.2⟩
      | none =>
          rw [hr'] at hundef
          intro i hi
          by_cases hlt : i < elf.symoffset
          · exact hundef i hlt
          · exact hfinds i ⟨not_lt.mp hlt, hi⟩

/-- A lookup in a table for the symbols ends, with the index of a symbol that has the
name, or without any because there is none; `DT_HASH` leaves out the first one. -/
theorem findSymidxByName_finds (hsyms : SymbolsAt abi mem elf count name)
    (htable : TableAt abi mem elf count name) (hsymbol : 0 ∉ symbol) :
    ∃ r, Returns (xhElfFindSymidxByName abi mem elf symbol) r ∧
      Finds name (fun i => (elf.isUseGnuHash = true ∨ 0 < i) ∧ i < count) symbol r := by
  rw [TableAt] at htable
  cases hgnu : elf.isUseGnuHash with
  | true =>
      rw [if_pos hgnu] at htable
      rcases xhElfGnuHashLookup_finds hsyms htable hsymbol with ⟨r, hr, hfinds⟩
      refine ⟨r, hr.congr fun fuel => ?_, by simpa using hfinds⟩
      rw [xhElfFindSymidxByName, if_pos hgnu]
  | false =>
      rw [if_neg (by simp [hgnu])] at htable
      rcases xhElfHashLookup_finds hsyms htable hsymbol with ⟨r, hr, hfinds⟩
      refine ⟨r, hr.congr fun fuel => ?_, by simpa using hfinds⟩
      rw [xhElfFindSymidxByName, if_neg (by simp [hgnu])]

/-- Which of the two tables a library has does not matter, as long as no two symbols
have one name and only the first one has none. -/
theorem findSymidxByName_agree {elf' : XhElf} (hsyms : SymbolsAt abi mem elf count name)
    (hsyms' : SymbolsAt abi mem elf' count name) (htable : TableAt abi mem elf count name)
    (htable' : TableAt abi mem elf' count name) (hfirst : name 0 = [])
    (hinj : ∀ i j, i < count → j < count → name i = name j → i = j) (hsymbol : 0 ∉ symbol)
    (hne : symbol ≠ []) :
    ∃ r, Returns (xhElfFindSymidxByName abi mem elf symbol) r ∧
      Returns (xhElfFindSymidxByName abi mem elf' symbol) r := by
  rcases findSymidxByName_finds hsyms htable hsymbol with ⟨r, hr, hfinds⟩
  rcases findSymidxByName_finds hsyms' htable' hsymbol with ⟨r', hr', hfinds'⟩
  have hsame : r = r' := by
    refine hfinds.unique hfinds' (fun i hi => ?_) fun i j hi hj => hinj i j hi.2 hj.2
    -- the symbol both may or may not leave out has no name
    have hpos : 0 < i := by
      rcases Nat.eq_zero_or_pos i with rfl | hpos
      · exact absurd (hi.symm.trans hfirst) hne
      · exact hpos
    simp [hpos]
  exact ⟨r, hr, hsame ▸ hr'⟩

end Tables

/-! ## A library with two symbols -/

section Example

/-- The names of the symbols. -/
def twoNames : Nat → List UInt8
  | 1 => [97]
  | 2 => [98]
  | _ => []

/-- The string table, the symbol table, and a hash table of each format. -/
def twoSymbols : Memory :=
  applyStores (fun _ => 0)
    [⟨0x100, [0, 97, 0, 98, 0]⟩, ⟨0x210, [1]⟩, ⟨0x220, [3]⟩, ⟨0x300, [1]⟩, ⟨0x308, [2]⟩,
      ⟨0x400, [255, 255, 255, 255]⟩, ⟨0x404, [1]⟩, ⟨0x408, leBytes 4 177670⟩,
      ⟨0x40c, leBytes 4 177671⟩]

/-- The library, with `DT_GNU_HASH` or without. -/
def twoSymbolsElf (isUseGnuHash : Bool) : XhElf where
  pathname := some "libtwo.so"
  baseAddr := 0x10
  biasAddr := 0x10
  ehdr := 0x10
  phdr := 0x40
  dyn := 0x80
  dynSz := 0
  strtab := 0x100
  symtab := 0x200
  relplt := 0
  relpltSz := 0
  reldyn := 0
  reldynSz := 0
  relandroid := 0
  relandroidSz := 0
  bucket := if isUseGnuHash then 0x404 else 0x300
  bucketCnt := 1
  chain := if isUseGnuHash then 0x408 else 0x304
  chainCnt := 3
  symoffset := if isUseGnuHash then 1 else 0
  bloom := 0x400
  bloomSz := 1
  bloomShift := 5
  isUseRela := false
  isUseGnuHash := isUseGnuHash

theorem twoSymbols_symbolsAt (isUseGnuHash : Bool) :
    SymbolsAt .arm twoSymbols (twoSymbolsElf isUseGnuHash) 3 twoNames := by
  constructor
  · decide
  · cases isUseGnuHash <;> decide

theorem twoSymbols_tableAt (isUseGnuHash : Bool) :
    TableAt .arm twoSymbols (twoSymbolsElf isUseGnuHash) 3 twoNames := by
  cases isUseGnuHash with
  | true =>
      refine ⟨by decide, by decide, by decide, by decide, fun k => .inr ?_, by decide, by decide⟩
      have hbucket : (xhElfGnuHash k).toNat % (twoSymbolsElf true).bucketCnt = 0 := Nat.mod_one _
      simp only [hbucket]
      refine ⟨by decide, 1, by decide, by decide, by decide, fun i hstart hcount _ => ?_⟩
      have hfirst : (twoSymbolsElf true).bucketAt twoSymbols 0 = 1 := by decide
      rw [hfirst]
      have hone : 1 ≤ i := hstart
      omega
  | false =>
      refine ⟨by decide, fun k => ⟨[1, 2], ?_, by decide, fun i hpos hlt _ => ?_⟩⟩
      · have hbucket : (xhElfHash k).toNat % (twoSymbolsElf false).bucketCnt = 0 := Nat.mod_one _
        simp only [hbucket]
        have hend : (twoSymbolsElf false).chainAt twoSymbols 2 = 0 := by decide
        exact ⟨by decide, by decide, by decide, by decide, hend⟩
      · simp only [List.mem_cons, List.not_mem_nil, or_false]
        omega

/-- A name looked up in either table. -/
theorem findSymidxByName_finds_two :
    ∃ r, Returns (xhElfFindSymidxByName .arm twoSymbols (twoSymbolsElf true) [98]) r ∧
      Finds twoNames (fun i => i < 3) [98] r := by
  have hfinds : ∃ r, Returns (xhElfFindSymidxByName .arm twoSymbols (twoSymbolsElf true) [98]) r ∧
      Finds twoNames (fun i => ((twoSymbolsElf true).isUseGnuHash = true ∨ 0 < i) ∧ i < 3) [98] r :=
    findSymidxByName_finds (twoSymbols_symbolsAt true) (twoSymbols_tableAt true) (by decide)
  simpa [twoSymbolsElf] using hfinds

/-- The two tables of the library. -/
theorem findSymidxByName_agree_two :
    ∃ r, Returns (xhElfFindSymidxByName .arm twoSymbols (twoSymbolsElf true) [98]) r ∧
      Returns (xhElfFindSymidxByName .arm twoSymbols (twoSymbolsElf false) [98]) r := by
  have hinj : ∀ i < 3, ∀ j < 3, twoNames i = twoNames j → i = j := by decide
  exact findSymidxByName_agree (twoSymbols_symbolsAt true) (twoSymbols_symbolsAt false)
    (twoSymbols_tableAt true) (twoSymbols_tableAt false) rfl (fun i j hi hj => hinj i hi j hj)
    (by decide) (by decide)

end Example

end Yahfa
