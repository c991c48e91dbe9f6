import Yahfa.Xhook
import Yahfa.XhElf
import Mathlib.Data.List.Nodup

/-!
# `xh_elf_init`

What `xh_elf_init` takes from the headers of a library in memory. The entries of the
dynamic segment may stand in any order: each field comes from the last entry of its kind,
and `DT_GNU_HASH` goes before `DT_HASH` (`xhElfInit_readFrom`).
-/

namespace Yahfa

open Bytes

/-! ## Headers -/

section Headers

variable (abi : Abi) (mem : Memory)

/-- What is used of an `ElfW(Phdr)`. -/
structure ElfPhdr where
  pType : Nat
  pOffset : Nat
  pVaddr : Nat
  pMemsz : Nat

def readPhdr (addr : Nat) : ElfPhdr :=
  if pointerSize abi = 8 then
    ⟨readWord mem addr 4, readWord mem (addr + 8) 8, readWord mem (addr + 16) 8,
      readWord mem (addr + 40) 8⟩
  else
    ⟨readWord mem addr 4, readWord mem (addr + 4) 4, readWord mem (addr + 8) 4,
      readWord mem (addr + 20) 4⟩

/-- `e_phoff` -/
def ePhoff (ehdr : Nat) : Nat := readAddr abi mem (ehdr + if pointerSize abi = 8 then 32 else 28)

/-- `e_phnum` -/
def ePhnum (ehdr : Nat) : Nat := readWord mem (ehdr + if pointerSize abi = 8 then 56 else 44) 2

/-- The program headers that the loops over them go through. -/
def elfPhdrs (self : XhElf) : List ElfPhdr :=
  (List.range (ePhnum abi mem self.ehdr)).map fun i =>
    readPhdr abi mem (self.phdr + i * if pointerSize abi = 8 then 56 else 32)

/-- `xh_elf_get_first_segment_by_type` -/
def xhElfGetFirstSegmentByType (self : XhElf) (type : Nat) : Option ElfPhdr :=
  (elfPhdrs abi mem self).find? fun phdr => phdr.pType = type

/-- `xh_elf_get_first_segment_by_type_offset` -/
def xhElfGetFirstSegmentByTypeOffset (self : XhElf) (type offset : Nat) : Option ElfPhdr :=
  (elfPhdrs abi mem self).find? fun phdr => phdr.pType = type ∧ phdr.pOffset = offset

end Headers

/-! ## The dynamic segment -/

/-- What an entry is about; `REL` and `RELA` are treated alike. -/
inductive DynKind where
  | strtab
  | symtab
  | pltrel
  | jmprel
  | pltrelsz
  | rel
  | relsz
  | androidRel
  | androidRelsz
  | hash
  | gnuHash
deriving DecidableEq, Repr

/-- The `DT_*` of the `switch` in `xh_elf_init`. -/
def dynKind (tag : Nat) : Option DynKind :=
  if tag = 5 then some .strtab
  else if tag = 6 then some .symtab
  else if tag = 20 then some .pltrel
  else if tag = 23 then some .jmprel
  else if tag = 2 then some .pltrelsz
  else if tag = 17 ∨ tag = 7 then some .rel
  else if tag = 18 ∨ tag = 8 then some .relsz
  else if tag = 0x6000000f ∨ tag = 0x60000011 then some .androidRel
  else if tag = 0x60000010 ∨ tag = 0x60000012 then some .androidRelsz
  else if tag = 4 then some .hash
  else if tag = 0x6ffffef5 then some .gnuHash
  else none

section Dynamic

variable (abi : Abi) (mem : Memory)

/-- `self->bias_addr + dyn->d_un.d_ptr`, which must not lie below the library. -/
def dynAddr (self : XhElf) (val : Nat) : Except Nat Nat :=
  let addr := addrAdd abi self.biasAddr val
  if addr < self.baseAddr then .error xhErrnoFormat else .ok addr

/-- `DT_HASH` at an address. -/
def setHash (self : XhElf) (raw : Nat) : XhElf :=
  let bucket := addrAdd abi raw 8
  { self with
    bucketCnt := readU32 mem raw
    chainCnt := readU32 mem (raw + 4)
    bucket := bucket
    chain := addrAdd abi bucket (4 * readU32 mem raw) }

/-- `DT_GNU_HASH` at an address. -/
def setGnuHash (self : XhElf) (raw : Nat) : XhElf :=
  let bloom := addrAdd abi raw 16
  let bucket := addrAdd abi bloom (pointerSize abi * readU32 mem (raw + 8))
  { self with
    bucketCnt := readU32 mem raw
    symoffset := readU32 mem (raw + 4)
    bloomSz := readU32 mem (raw + 8)
    bloomShift := readU32 mem (raw + 12)
    bloom := bloom
    bucket := bucket
    chain := addrAdd abi bucket (4 * readU32 mem raw)
    isUseGnuHash := true }

/-- The `switch` in `xh_elf_init`. -/
def dynVisit (self : XhElf) (kind : DynKind) (val : Nat) : Except Nat XhElf :=
  match kind with
  | .strtab => (dynAddr abi self val).map fun addr => { self with strtab := addr }
  | .symtab => (dynAddr abi self val).map fun addr => { self with symtab := addr }
  | .pltrel => .ok { self with isUseRela := decide (val = 7) }
  | .jmprel => (dynAddr abi self val).map fun addr => { self with relplt := addr }
  | .pltrelsz => .ok { self with relpltSz := val % 2 ^ 32 }
  | .rel => (dynAddr abi self val).map fun addr => { self with reldyn := addr }
  | .relsz => .ok { self with reldynSz := val % 2 ^ 32 }
  | .androidRel => (dynAddr abi self val).map fun addr => { self with relandroid := addr }
  | .androidRelsz => .ok { self with relandroidSz := val % 2 ^ 32 }
  | .hash =>
      -- ignore DT_HASH when ELF contains DT_GNU_HASH hash table
      if self.isUseGnuHash then .ok self else (dynAddr abi self val).map (setHash abi mem self)
  | .gnuHash => (dynAddr abi self val).map (setGnuHash abi mem self)

/-- The loop over the dynamic segment, with so many entries left. -/
def dynLoop : Nat → Nat → XhElf → Except Nat XhElf
  | 0, _, self => .ok self
  | n + 1, dyn, self =>
      let tag := readAddr abi mem dyn
      if tag = 0 then .ok self
      else
        match dynKind tag with
        | none => dynLoop n (dyn + 2 * pointerSize abi) self
        | some kind =>
            match dynVisit abi mem self kind (readAddr abi mem (dyn + pointerSize abi)) with
            | .error r => .error r
            | .ok self => dynLoop n (dyn + 2 * pointerSize abi) self

/-- The check of the packed relocations: they begin with `APS2`, which is passed over. -/
def checkAndroid (self : XhElf) : Except Nat XhElf :=
  if self.relandroid = 0 then .ok self
  else if self.relandroidSz < 4 ∨ ¬ BytesAt mem self.relandroid [65, 80, 83, 50] then
    .error xhErrnoFormat
  else
    .ok { self with
      relandroid := addrAdd abi self.relandroid 4
      relandroidSz := self.relandroidSz - 4 }

/-- `xh_elf_check`, whether nothing is missing. -/
def xhElfCheck (self : XhElf) : Bool :=
  self.baseAddr ≠ 0 ∧ self.biasAddr ≠ 0 ∧ self.ehdr ≠ 0 ∧ self.phdr ≠ 0 ∧ self.strtab ≠ 0 ∧
    self.symtab ≠ 0 ∧ self.bucket ≠ 0 ∧ self.chain ≠ 0 ∧ (self.isUseGnuHash → self.bloom ≠ 0)

/-- `memset(self, 0, sizeof(xh_elf_t))` -/
def XhElf.zero : XhElf :=
  ⟨none, 0, 0, 0, 0, 0, 0, 0, 0, 0, 0, 0, 0, 0, 0, 0, 0, 0, 0, 0, 0, 0, 0, false, false⟩

/-- `xh_elf_init`: the error, or what it has filled in. -/
def xhElfInit (baseAddr : Nat) (pathname : Option String) : Except Nat XhElf :=
  if baseAddr = 0 ∨ pathname = none then .error xhErrnoInval
  else
    let self := { XhElf.zero with
      pathname := pathname
      baseAddr := baseAddr
      ehdr := baseAddr
      phdr := addrAdd abi baseAddr (ePhoff abi mem baseAddr) }
    -- find the first load-segment with offset 0
    match xhElfGetFirstSegmentByTypeOffset abi mem self 1 0 with
    | none => .error xhErrnoFormat
    | some phdr0 =>
        if baseAddr < phdr0.pVaddr then .error xhErrnoFormat
        else
          -- find dynamic-segment
          match xhElfGetFirstSegmentByType abi mem self 2 with
          | none => .error xhErrnoFormat
          | some dhdr =>
              let biasAddr := baseAddr - phdr0.pVaddr
              let self := { self with
                biasAddr := biasAddr
                dyn := addrAdd abi biasAddr dhdr.pVaddr
                dynSz := dhdr.pMemsz % 2 ^ 32 }
              match dynLoop abi mem (self.dynSz / (2 * pointerSize abi)) self.dyn self with
              | .error r => .error r
              | .ok self =>
                  match checkAndroid abi mem self with
                  | .error r => .error r
                  | .ok self => if xhElfCheck self then .ok self else .error xhErrnoFormat

end Dynamic

/-! ## What is filled in -/

section Fields

variable (abi : Abi) (mem : Memory)

/-- The entries the loop looks at, up to `DT_NULL`. -/
def dynEntries : Nat → Nat → List (DynKind × Nat)
  | 0, _ => []
  | n + 1, dyn =>
      let tag := readAddr abi mem dyn
      if tag = 0 then []
      else
        match dynKind tag with
        | none => dynEntries n (dyn + 2 * pointerSize abi)
        | some kind =>
            (kind, readAddr abi mem (dyn + pointerSize abi)) ::
              dynEntries n (dyn + 2 * pointerSize abi)

/-- The last value of each kind. -/
def lastVals (look : DynKind → Option Nat) (es : List (DynKind × Nat)) : DynKind → Option Nat :=
  es.foldl (fun look e => Function.update look e.1 (some e.2)) look

/-- The fields that have nothing to do with the hash tables. -/
def fillTables (self : XhElf) (look : DynKind → Option Nat) : XhElf :=
  { self with
    strtab := (look .strtab).elim 0 (addrAdd abi self.biasAddr)
    symtab := (look .symtab).elim 0 (addrAdd abi self.biasAddr)
    isUseRela := decide (look .pltrel = some 7)
    relplt := (look .jmprel).elim 0 (addrAdd abi self.biasAddr)
    relpltSz := (look .pltrelsz).elim 0 fun val => val % 2 ^ 32
    reldyn := (look .rel).elim 0 (addrAdd abi self.biasAddr)
    reldynSz := (look .relsz).elim 0 fun val => val % 2 ^ 32
    relandroid := (look .androidRel).elim 0 (addrAdd abi self.biasAddr)
    relandroidSz := (look .androidRelsz).elim 0 fun val => val % 2 ^ 32 }

/-- With the hash table: `DT_GNU_HASH` if there is one, wherever it stands. It leaves
`chain_cnt` as it finds it. -/
def fillHash (self : XhElf) (look : DynKind → Option Nat) (chainCnt : Nat) : XhElf :=
  match look .gnuHash, look .hash with
  | some val, _ =>
      { setGnuHash abi mem self (addrAdd abi self.biasAddr val) with chainCnt := chainCnt }
  | none, some val => setHash abi mem self (addrAdd abi self.biasAddr val)
  | none, none => self

variable {abi mem} {self self' : XhElf} {look : DynKind → Option Nat} {chainCnt n dyn val : Nat}

theorem dynLoop_eq (n dyn : Nat) (self : XhElf) :
    dynLoop abi mem n dyn self =
      (dynEntries abi mem n dyn).foldlM (fun self e => dynVisit abi mem self e.1 e.2) self := by
  induction n generalizing dyn self with
  | zero => rfl
  | succ n ih =>
      rw [dynLoop, dynEntries]
      by_cases htag : readAddr abi mem dyn = 0
      · simp only [if_pos htag]
        rfl
      · simp only [if_neg htag]
        cases dynKind (readAddr abi mem dyn) with
        | none => exact ih _ self
        | some kind =>
            simp only [List.foldlM_cons]
            cases dynVisit abi mem self kind (readAddr abi mem (dyn + pointerSize abi)) with
            | error r => rfl
            | ok self => exact ih _ self

/-- One entry takes the place of the one of its kind before it. -/
theorem dynVisit_fill (hself : self.isUseGnuHash = false) (kind : DynKind)
    (h : dynVisit abi mem (fillHash abi mem (fillTables abi self look) look chainCnt) kind val =
      .ok self') :
    ∃ chainCnt', self' = fillHash abi mem
      (fillTables abi self (Function.update look kind (some val)))
      (Function.update look kind (some val)) chainCnt' := by
  have hbias : (fillHash abi mem (fillTables abi self look) look chainCnt).biasAddr =
      self.biasAddr := by
    rw [fillHash]
    split <;> rfl
  have haddr : ∀ {f : Nat → XhElf},
      (dynAddr abi (fillHash abi mem (fillTables abi self look) look chainCnt) val).map f =
        .ok self' → self' = f (addrAdd abi self.biasAddr val) := by
    intro f hf
    rw [dynAddr, hbias] at hf
    split_ifs at hf with hbase
    · cases hf
    · exact (Except.ok.inj hf).symm
  cases kind
  case gnuHash =>
    refine ⟨(fillHash abi mem (fillTables abi self look) look chainCnt).chainCnt, ?_⟩
    rw [haddr h]
    simp only [fillHash, fillTables, Function.update_self, ne_eq, reduceCtorEq, not_false_eq_true,
      Function.update_of_ne]
    cases look .gnuHash <;> cases look .hash <;> rfl
  case hash =>
    cases hgnu : look .gnuHash with
    | some v =>
        -- ignored
        refine ⟨chainCnt, ?_⟩
        have hsame : .ok (fillHash abi mem (fillTables abi self look) look chainCnt) =
            (.ok self' : Except Nat XhElf) := by
          rw [← h, dynVisit, if_pos]
          rw [fillHash, hgnu]
          rfl
        rw [← Except.ok.inj hsame]
        simp only [fillHash, fillTables, hgnu, ne_eq, reduceCtorEq, not_false_eq_true,
          Function.update_of_ne]
    | none =>
        have hunused :
            ¬ (fillHash abi mem (fillTables abi self look) look chainCnt).isUseGnuHash = true := by
          rw [fillHash, hgnu]
          cases look .hash <;> simp [setHash, fillTables, hself]
        rw [dynVisit, if_neg hunused] at h
        refine ⟨chainCnt, ?_⟩
        rw [haddr h]
        simp only [fillHash, fillTables, hgnu, Function.update_self, ne_eq, reduceCtorEq,
          not_false_eq_true, Function.update_of_ne]
        cases look .hash <;> rfl
  all_goals
    refine ⟨chainCnt, ?_⟩
    first
      | rw [haddr h]
      | rw [← Except.ok.inj h]
    simp only [fillHash, fillTables, Function.update_self, ne_eq, reduceCtorEq, not_false_eq_true,
      Function.update_of_ne]
    cases look .gnuHash <;> cases look .hash <;> simp [setHash, setGnuHash]

theorem foldlM_dynVisit (hself : self.isUseGnuHash = false) (es : List (DynKind × Nat))
    (h : es.foldlM (fun self e => dynVisit abi mem self e.1 e.2)
      (fillHash abi mem (fillTables abi self look) look chainCnt) = .ok self') :
    ∃ chainCnt', self' = fillHash abi mem (fillTables abi self (lastVals look es))
      (lastVals look es) chainCnt' := by
  induction es generalizing look chainCnt with
  | nil => exact ⟨chainCnt, (Except.ok.inj h).symm⟩
  | cons e es ih =>
      rw [List.foldlM_cons] at h
      cases hvisit : dynVisit abi mem
          (fillHash abi mem (fillTables abi self look) look chainCnt) e.1 e.2 with
      | error r =>
          rw [hvisit] at h
          cases h
      | ok self₁ =>
          rw [hvisit] at h
          rcases dynVisit_fill hself e.1 hvisit with ⟨chainCnt₁, rfl⟩
          exact ih h

/-- The order of the entries does not matter, when each kind stands there once. -/
theorem lastVals_perm {es es' : List (DynKind × Nat)} (hperm : es.Perm es')
    (hkinds : (es.map Prod.fst).Nodup) : lastVals look es = lastVals look es' := by
  refine hperm.foldl_eq' ?_ look
  intro e he e' he' look
  by_cases hkind : e.1 = e'.1
  · rw [List.inj_on_of_nodup_map hkinds he he' hkind]
  · exact Function.update_comm hkind _ _ look

/-- What `xh_elf_init` starts from: the library and its headers. -/
def elfStart (abi : Abi) (mem : Memory) (baseAddr : Nat) (pathname : Option String) : XhElf :=
  { XhElf.zero with
    pathname := pathname
    baseAddr := baseAddr
    ehdr := baseAddr
    phdr := addrAdd abi baseAddr (ePhoff abi mem baseAddr) }

/-- The same with the bias and the dynamic segment, between the two segments. -/
def elfBetween (abi : Abi) (mem : Memory) (baseAddr : Nat) (pathname : Option String)
    (phdr0 dhdr : ElfPhdr) : XhElf :=
  { elfStart abi mem baseAddr pathname with
    biasAddr := baseAddr - phdr0.pVaddr
    dyn := addrAdd abi (baseAddr - phdr0.pVaddr) dhdr.pVaddr
    dynSz := dhdr.pMemsz % 2 ^ 32 }

/-- Every field is what the last entry of its kind in the dynamic segment says, in
whichever order the entries are taken, `DT_GNU_HASH` goes before `DT_HASH`, and nothing
that is needed is missing. -/
def ReadFrom (abi : Abi) (mem : Memory) (baseAddr : Nat) (pathname : Option String)
    (self : XhElf) : Prop :=
  ∃ phdr0 dhdr chainCnt,
    xhElfGetFirstSegmentByTypeOffset abi mem (elfStart abi mem baseAddr pathname) 1 0 =
      some phdr0 ∧
    phdr0.pVaddr ≤ baseAddr ∧
    xhElfGetFirstSegmentByType abi mem (elfStart abi mem baseAddr pathname) 2 = some dhdr ∧
    let start := elfBetween abi mem baseAddr pathname phdr0 dhdr
    let entries := dynEntries abi mem (start.dynSz / (2 * pointerSize abi)) start.dyn
    ∀ es, es = entries ∨ (entries.Perm es ∧ (entries.map Prod.fst).Nodup) →
      let look := lastVals (fun _ => none) es
      checkAndroid abi mem (fillHash abi mem (fillTables abi start look) look chainCnt) =
          .ok self ∧
        xhElfCheck self = true

/-- What a successful `xh_elf_init` has gone through. -/
theorem xhElfInit_eq_ok {baseAddr : Nat} {pathname : Option String}
    (h : xhElfInit abi mem baseAddr pathname = .ok self) :
    ∃ phdr0 dhdr self₁,
      xhElfGetFirstSegmentByTypeOffset abi mem (elfStart abi mem baseAddr pathname) 1 0 =
        some phdr0 ∧
      phdr0.pVaddr ≤ baseAddr ∧
      xhElfGetFirstSegmentByType abi mem (elfStart abi mem baseAddr pathname) 2 = some dhdr ∧
      let start := elfBetween abi mem baseAddr pathname phdr0 dhdr
      dynLoop abi mem (start.dynSz / (2 * pointerSize abi)) start.dyn start = .ok self₁ ∧
        checkAndroid abi mem self₁ = .ok self ∧ xhElfCheck self = true := by
  simp only [xhElfInit] at h
  split at h
  · cases h
  split at h
  · cases h
  next phdr0 hload =>
    split at h
    · cases h
    next hvaddr =>
      split at h
      · cases h
      next dhdr hdynamic =>
        split at h
        · cases h
        next self₁ hloop =>
          split at h
          · cases h
          next self₂ hcheck =>
            split at h
            next hcomplete =>
              obtain rfl : self₂ = self := Except.ok.inj h
              exact ⟨phdr0, dhdr, self₁, hload, Nat.le_of_not_lt hvaddr, hdynamic, hloop, hcheck,
                hcomplete⟩
            next => cases h

/-- The loop over the dynamic segment, from the fields as `memset` has left them. -/
theorem dynLoop_fill {baseAddr : Nat} {pathname : Option String} {phdr0 dhdr : ElfPhdr}
    (h : dynLoop abi mem n dyn (elfBetween abi mem baseAddr pathname phdr0 dhdr) = .ok self') :
    ∃ chainCnt, self' = fillHash abi mem
      (fillTables abi (elfBetween abi mem baseAddr pathname phdr0 dhdr)
        (lastVals (fun _ => none) (dynEntries abi mem n dyn)))
      (lastVals (fun _ => none) (dynEntries abi mem n dyn)) chainCnt := by
  have hempty : elfBetween abi mem baseAddr pathname phdr0 dhdr =
      fillHash abi mem
        (fillTables abi (elfBetween abi mem baseAddr pathname phdr0 dhdr) fun _ => none)
        (fun _ => none) 0 := rfl
  rw [dynLoop_eq, hempty] at h
  exact foldlM_dynVisit rfl _ h

/-- What `xh_elf_init` fills in, when it succeeds. -/
theorem xhElfInit_readFrom (abi : Abi) (mem : Memory) (baseAddr : Nat) (pathname : Option String)
    (self : XhElf) (h : xhElfInit abi mem baseAddr pathname = .ok self) :
    ReadFrom abi mem baseAddr pathname self := by
  rcases xhElfInit_eq_ok h with
    ⟨phdr0, dhdr, self₁, hload, hvaddr, hdynamic, hloop, hcheck, hcomplete⟩
  rcases dynLoop_fill hloop with ⟨chainCnt, rfl⟩
  refine ⟨phdr0, dhdr, chainCnt, hload, hvaddr, hdynamic, ?_⟩
  intro start entries es hes look
  have hlook : look = lastVals (fun _ => none) entries := by
    rcases hes with rfl | ⟨hperm, hkinds⟩
    · rfl
    · exact (lastVals_perm hperm hkinds).symm
  rw [hlook]
  exact ⟨hcheck, hcomplete⟩

/-- A library of 32 bits, word by word: its program headers, the dynamic segment with both
hash tables and all relocation tables, and the beginnings of three of the tables. -/
def libaWords : List (Nat × Nat) :=
  [(0x101c, 52), (0x102c, 3),
    (0x1034, 6), (0x1038, 52), (0x103c, 0x434), (0x1048, 96),
    (0x1054, 1), (0x1058, 0), (0x105c, 0x400), (0x1068, 0x500),
    (0x1074, 2), (0x1078, 0xc0), (0x107c, 0x4c0), (0x1088, 112),
    -- a needed library, then the tables, `DT_GNU_HASH` behind `DT_HASH`
    (0x10c0, 1), (0x10c4, 7), (0x10c8, 5), (0x10cc, 0x600), (0x10d0, 4), (0x10d4, 0x680),
    (0x10d8, 0x6ffffef5), (0x10dc, 0x700), (0x10e0, 6), (0x10e4, 0x640), (0x10e8, 20),
    (0x10ec, 17), (0x10f0, 23), (0x10f4, 0x800), (0x10f8, 2), (0x10fc, 16), (0x1100, 17),
    (0x1104, 0x820), (0x1108, 18), (0x110c, 8), (0x1110, 0x6000000f), (0x1114, 0x840),
    (0x1118, 0x60000010), (0x111c, 10),
    -- `DT_NULL`, and an entry behind it
    (0x1120, 0), (0x1124, 0), (0x1128, 5), (0x112c, 0),
    (0x1280, 1), (0x1284, 3), (0x1300, 2), (0x1304, 1), (0x1308, 1), (0x130c, 6),
    (0x1440, 0x32535041)]

def libaMem : Memory := fun a =>
  (libaWords.find? fun word => word.1 = a - a % 4).elim 0 fun word =>
    UInt8.ofNat (word.2 / 256 ^ (a % 4))

def libaElf : XhElf where
  pathname := some "liba.so"
  baseAddr := 0x1000
  biasAddr := 0xc00
  ehdr := 0x1000
  phdr := 0x1034
  dyn := 0x10c0
  dynSz := 112
  strtab := 0x1200
  symtab := 0x1240
  relplt := 0x1400
  relpltSz := 16
  reldyn := 0x1420
  reldynSz := 8
  relandroid := 0x1444
  relandroidSz := 6
  bucket := 0x1314
  bucketCnt := 2
  chain := 0x131c
  chainCnt := 3
  symoffset := 1
  bloom := 0x1310
  bloomSz := 1
  bloomShift := 6
  isUseRela := false
  isUseGnuHash := true

theorem libaElf_init : xhElfInit .i386 libaMem 0x1000 (some "liba.so") = .ok libaElf := by
  decide +kernel

theorem xhElfInit_readFrom_liba : ReadFrom .i386 libaMem 0x1000 (some "liba.so") libaElf :=
  xhElfInit_readFrom .i386 libaMem 0x1000 (some "liba.so") libaElf libaElf_init

end Fields

end Yahfa
