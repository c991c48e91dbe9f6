import Yahfa.Xhook
import Yahfa.PackedReloc
import Yahfa.XhElf

/-!
# `xh_elf_hook` over the memory of a library

`xh_elf_hook` reads the relocation sections while it stores to the slots they
name. As long as no slot lies inside a section, it does what `xhElfHook` does over
the lists of relocations that the sections hold at the start (`xhElfHook_refines`).
-/

namespace Yahfa

open Bytes Iter Loop HashTable

/-- `XH_ERRNO_ELFINIT`. -/
def xhErrnoElfinit : Nat := 1008

/-! ## Relocation entries -/

section Entries

variable (abi : Abi)

/-- `XH_ELF_R_GENERIC_JUMP_SLOT`. -/
def genericJumpSlot : Nat :=
  match abi with
  | .arm => 22
  | .aarch64 => 1026
  | .i386 => 7
  | .x86_64 => 7

/-- `XH_ELF_R_GENERIC_GLOB_DAT`. -/
def genericGlobDat : Nat :=
  match abi with
  | .arm => 21
  | .aarch64 => 1025
  | .i386 => 6
  | .x86_64 => 6

/-- `XH_ELF_R_GENERIC_ABS`. -/
def genericAbs : Nat :=
  match abi with
  | .arm => 2
  | .aarch64 => 257
  | .i386 => 1
  | .x86_64 => 1

/-- The bits of `r_info` that are the type. -/
def typeBits : Nat := if pointerSize abi = 8 then 32 else 8

variable {abi}

/-- `XH_ELF_R_SYM`. -/
def ElfRel.rSym (rel : ElfRel abi) : Nat := rel.rInfo.toNat / 2 ^ typeBits abi

/-- `XH_ELF_R_TYPE`. -/
def ElfRel.rType (rel : ElfRel abi) : Nat := rel.rInfo.toNat % 2 ^ typeBits abi

/-- The entry, with its type told apart. -/
def ElfRel.reloc (rel : ElfRel abi) : Reloc where
  rOffset := rel.rOffset.toNat
  rSym := rel.rSym
  rType :=
    if rel.rType = genericJumpSlot abi then .jumpSlot
    else if rel.rType = genericGlobDat abi then .globDat
    else if rel.rType = genericAbs abi then .abs
    else .other

theorem ElfRel.reloc_jumpSlot (rel : ElfRel abi) :
    rel.reloc.rType = .jumpSlot ↔ rel.rType = genericJumpSlot abi := by
  simp only [ElfRel.reloc]
  split
  · next h => exact iff_of_true rfl h
  · next h =>
    refine iff_of_false ?_ h
    split
    · simp
    · split <;> simp

theorem ElfRel.reloc_data (rel : ElfRel abi) :
    rel.reloc.rType ≠ .globDat ∧ rel.reloc.rType ≠ .abs ↔
      rel.rType ≠ genericGlobDat abi ∧ rel.rType ≠ genericAbs abi := by
  have hslot : genericJumpSlot abi ≠ genericGlobDat abi ∧ genericJumpSlot abi ≠ genericAbs abi := by
    cases abi <;> decide
  simp only [ElfRel.reloc]
  split
  · next h => exact iff_of_true (by simp) (by rw [h]; exact hslot)
  · split
    · next h => exact iff_of_false (by simp) fun hne => hne.1 h
    · next h =>
      split
      · next h' => exact iff_of_false (by simp) fun hne => hne.2 h'
      · next h' => exact iff_of_true (by simp) ⟨h, h'⟩

end Entries

/-! ## `xh_elf_hook` -/

section Hook

variable (abi : Abi) (env : Env) (self : XhElf) (newFunc : Nat) (oldFunc : Option OldFunc)

/-- What `xh_elf_replace_function` looks at. -/
def XhElf.library : Elf where
  pathname := self.pathname.getD ""
  baseAddr := self.baseAddr
  biasAddr := self.biasAddr
  relplt := []
  reldyn := []
  relandroid := []
  findSymidxByName _ := none

/-- `xh_elf_find_and_replace_func` for an entry in memory; the second result is
`found`. -/
def elfFindAndReplaceFunc (isPlt : Bool) (symidx : Nat) (rel : ElfRel abi) (p : Proc) :
    Ended Nat × Bool × Proc :=
  if rel.rSym ≠ symidx then (.ret 0, false, p)
  else if isPlt ∧ rel.rType ≠ genericJumpSlot abi then (.ret 0, false, p)
  else if ¬ isPlt ∧ rel.rType ≠ genericGlobDat abi ∧ rel.rType ≠ genericAbs abi then
    (.ret 0, false, p)
  else
    let addr := (self.biasAddr + rel.rOffset.toNat) % addressSpace abi
    if addr < self.baseAddr then (.ret xhErrnoFormat, true, p)
    else
      let (r, p) := xhElfReplaceFunction abi env self.library newFunc oldFunc addr p
      (r, true, p)

/-- The body of the loop over `.rel(a).plt`. -/
def elfRelpltBody (symidx : Nat) (rel : ElfRel abi) (p : Proc) : Round Proc (Ended Nat × Proc) :=
  let (r, found, p) := elfFindAndReplaceFunc abi env self newFunc oldFunc true symidx rel p
  if r ≠ .ret 0 then .exit (r, p) else if found then .exit (.ret 0, p) else .again p

/-- The body of the loops over `.rel(a).dyn` and `.rel(a).android`. -/
def elfReldynBody (symidx : Nat) (rel : ElfRel abi) (p : Proc) : Round Proc (Ended Nat × Proc) :=
  let (r, _, p) := elfFindAndReplaceFunc abi env self newFunc oldFunc false symidx rel p
  if r ≠ .ret 0 then .exit (r, p) else .again p

/-- The loop over a plain section. -/
def elfHookPlain (rel relSz : Nat) (body : ElfRel abi → Proc → Round Proc (Ended Nat × Proc))
    (p : Proc) (fuel : Nat) : Option (Ended Nat × Proc) :=
  if rel = 0 then some (.ret 0, p)
  else
    run (forEach (fun p => xhElfPlainRelocIteratorNext abi p.mem) body fun p => (.ret 0, p)) fuel
      (xhElfPlainRelocIteratorInit rel relSz self.isUseRela, p)

/-- The loop over the packed section. -/
def elfHookPacked (rel relSz : Nat) (body : ElfRel abi → Proc → Round Proc (Ended Nat × Proc))
    (p : Proc) (fuel : Nat) : Option (Ended Nat × Proc) :=
  if rel = 0 then some (.ret 0, p)
  else
    match xhElfPackedRelocIteratorInit abi p.mem rel relSz self.isUseRela with
    | .ok it =>
        run (forEach (fun p => xhElfPackedRelocIteratorNext p.mem) body fun p => (.ret 0, p)) fuel
          (it, p)
    | .failed => none
    | .undefined => none

/-- The three loops of `xh_elf_hook`. -/
def elfHookSections (symidx : Nat) (p : Proc) (fuel : Nat) : Option (Ended Nat × Proc) :=
  -- replace for .rel(a).plt
  (elfHookPlain abi self self.relplt self.relpltSz
    (elfRelpltBody abi env self newFunc oldFunc symidx) p fuel).bind fun (r, p) =>
  if r ≠ .ret 0 then some (r, p)
  else
    -- replace for .rel(a).dyn
    (elfHookPlain abi self self.reldyn self.reldynSz
      (elfReldynBody abi env self newFunc oldFunc symidx) p fuel).bind fun (r, p) =>
    if r ≠ .ret 0 then some (r, p)
    else
      -- replace for .rel(a).android
      elfHookPacked abi self self.relandroid self.relandroidSz
        (elfReldynBody abi env self newFunc oldFunc symidx) p fuel

/-- `xh_elf_hook` in memory. -/
def elfHook (symbol : List UInt8) (p : Proc) (fuel : Nat) : Option (Ended Nat × Proc) :=
  if self.pathname = none then some (.ret xhErrnoElfinit, p)
  else if newFunc = NULL then some (.ret xhErrnoInval, p)
  else
    match xhElfFindSymidxByName abi p.mem self symbol fuel with
    | none => none
    | some none => some (.ret 0, p)
    | some (some symidx) => elfHookSections abi env self newFunc oldFunc symidx p fuel

end Hook

/-! ## The lists of relocations -/

section Lists

variable {abi : Abi} {mem : Memory} {elf : XhElf}

variable (abi) in
/-- The entries of a plain section. -/
def plainRelocs (mem : Memory) (rel relSz : Nat) (isUseRela : Bool) : List (ElfRel abi) :=
  (List.range (relSz / relSize abi isUseRela)).map fun k =>
    readRel abi mem (rel + k * relSize abi isUseRela) isUseRela

/-- The relocation sections of a library are whole ones. The packed one holds
`android`, if there is one. -/
structure RelocsAt (abi : Abi) (mem : Memory) (elf : XhElf)
    (android : PackedSection abi elf.isUseRela) : Prop where
  relplt_dvd : relSize abi elf.isUseRela ∣ elf.relpltSz
  reldyn_dvd : relSize abi elf.isUseRela ∣ elf.reldynSz
  bytes : elf.relandroid ≠ 0 → BytesAt mem elf.relandroid android.encode
  length_le : android.encode.length ≤ elf.relandroidSz

/-- The entries of `.rel(a).plt`. -/
def XhElf.relpltEntries (elf : XhElf) (abi : Abi) (mem : Memory) : List (ElfRel abi) :=
  if elf.relplt = 0 then [] else plainRelocs abi mem elf.relplt elf.relpltSz elf.isUseRela

/-- The entries of `.rel(a).dyn`. -/
def XhElf.reldynEntries (elf : XhElf) (abi : Abi) (mem : Memory) : List (ElfRel abi) :=
  if elf.reldyn = 0 then [] else plainRelocs abi mem elf.reldyn elf.reldynSz elf.isUseRela

/-- The entries of `.rel(a).android`. -/
def XhElf.relandroidEntries (elf : XhElf) (android : PackedSection abi elf.isUseRela) :
    List (ElfRel abi) :=
  if elf.relandroid = 0 then [] else android.expand

/-- The library as the lists of its relocations. -/
def XhElf.lists (elf : XhElf) (mem : Memory) (android : PackedSection abi elf.isUseRela)
    (findSymidxByName : String → Option Nat) : Elf where
  pathname := elf.pathname.getD ""
  baseAddr := elf.baseAddr
  biasAddr := elf.biasAddr
  relplt := (elf.relpltEntries abi mem).map ElfRel.reloc
  reldyn := (elf.reldynEntries abi mem).map ElfRel.reloc
  relandroid := (elf.relandroidEntries android).map ElfRel.reloc
  findSymidxByName := findSymidxByName

/-- The bytes of the relocation sections there are. -/
def XhElf.relocSpans (elf : XhElf) : List Span :=
  [⟨elf.relplt, elf.relpltSz⟩, ⟨elf.reldyn, elf.reldynSz⟩,
    ⟨elf.relandroid, elf.relandroidSz⟩].filter fun s => s.base ≠ 0

/-- The memories agree on the relocation sections. -/
def XhElf.SameRelocs (elf : XhElf) (mem : Memory) (p : Proc) : Prop :=
  ∀ s ∈ elf.relocSpans, ∀ a, s.Contains a → p.mem a = mem a

/-- The slot of an entry. -/
def XhElf.slot (elf : XhElf) (rel : ElfRel abi) : Span :=
  ⟨(elf.biasAddr + rel.rOffset.toNat) % addressSpace abi, pointerSize abi⟩

/-- The slots of the library lie apart from its relocation sections. -/
def XhElf.SlotsApart (elf : XhElf) (mem : Memory) (android : PackedSection abi elf.isUseRela) :
    Prop :=
  ∀ rel ∈ elf.relpltEntries abi mem ++ elf.reldynEntries abi mem ++ elf.relandroidEntries android,
    ∀ s ∈ elf.relocSpans, (elf.slot rel).Apart s

theorem relSize_pos (abi : Abi) (isUseRela : Bool) : 0 < relSize abi isUseRela := by
  cases abi <;> cases isUseRela <;> decide

theorem readRel_congr {mem' : Memory} {addr : Nat} {isUseRela : Bool}
    (h : ∀ a, (Span.mk addr (relSize abi isUseRela)).Contains a → mem a = mem' a) :
    readRel abi mem addr isUseRela = readRel abi mem' addr isUseRela := by
  have hword : ∀ k, (k + 1) * pointerSize abi ≤ relSize abi isUseRela →
      readAddr abi mem (addr + k * pointerSize abi) =
        readAddr abi mem' (addr + k * pointerSize abi) := by
    intro k hk
    refine readWord_congr fun x hx => h x ?_
    simp only [Span.Contains] at hx ⊢
    rw [Nat.add_mul, Nat.one_mul] at hk
    omega
  have hsize : 2 * pointerSize abi ≤ relSize abi isUseRela := by
    cases isUseRela <;> (simp [relSize]; try omega)
  have hfirst := hword 0 (by omega)
  have hsecond := hword 1 (by omega)
  rw [Nat.zero_mul, Nat.add_zero] at hfirst
  rw [Nat.one_mul] at hsecond
  simp only [readRel, hfirst, hsecond]
  cases isUseRela with
  | true => simp [hword 2 (by simp [relSize])]
  | false => rfl

/-- The plain iterator goes through the entries of its section, here from the `j`-th
on. -/
theorem plainRelocs_yields_from {good : Proc → Prop} {rel j n : Nat} {isUseRela : Bool}
    (hgood : ∀ p, good p → ∀ a, (Span.mk rel ((j + n) * relSize abi isUseRela)).Contains a →
      p.mem a = mem a) :
    Yields (fun p => xhElfPlainRelocIteratorNext abi p.mem) good
      ⟨rel + j * relSize abi isUseRela, rel + (j + n) * relSize abi isUseRela, isUseRela⟩
      ((List.range' j n).map fun k =>
        readRel abi mem (rel + k * relSize abi isUseRela) isUseRela) := by
  have hpos := relSize_pos abi isUseRela
  induction n generalizing j with
  | zero =>
      refine .done fun p _ => ?_
      simp [xhElfPlainRelocIteratorNext]
  | succ n ih =>
      have hshift : j + (n + 1) = j + 1 + n := by omega
      have hmul : (j + 1 + n) * relSize abi isUseRela =
          j * relSize abi isUseRela + relSize abi isUseRela + n * relSize abi isUseRela := by ring
      rw [List.range'_succ, List.map_cons]
      have hrest := @ih (j + 1) (hshift ▸ hgood)
      rw [← hshift] at hrest
      refine .item (fun p hp => ?_) hrest
      have hread : readRel abi p.mem (rel + j * relSize abi isUseRela) isUseRela =
          readRel abi mem (rel + j * relSize abi isUseRela) isUseRela := by
        refine readRel_congr fun a ha => hgood p hp a ?_
        simp only [Span.Contains] at ha ⊢
        rw [hshift, hmul]
        omega
      have hmore :
          ¬ rel + (j + (n + 1)) * relSize abi isUseRela ≤ rel + j * relSize abi isUseRela := by
        rw [hshift, hmul]
        omega
      have hnext : rel + j * relSize abi isUseRela + relSize abi isUseRela =
          rel + (j + 1) * relSize abi isUseRela := by ring
      simp only [xhElfPlainRelocIteratorNext, if_neg hmore, hread, hnext]

theorem plainRelocs_yields {good : Proc → Prop} {rel relSz : Nat} {isUseRela : Bool}
    (hdvd : relSize abi isUseRela ∣ relSz)
    (hgood : ∀ p, good p → ∀ a, (Span.mk rel relSz).Contains a → p.mem a = mem a) :
    Yields (fun p => xhElfPlainRelocIteratorNext abi p.mem) good
      (xhElfPlainRelocIteratorInit rel relSz isUseRela)
      (plainRelocs abi mem rel relSz isUseRela) := by
  rcases hdvd with ⟨n, rfl⟩
  have hgood' : ∀ p, good p → ∀ a, (Span.mk rel ((0 + n) * relSize abi isUseRela)).Contains a →
      p.mem a = mem a := by rwa [Nat.zero_add, Nat.mul_comm]
  have hyields := plainRelocs_yields_from hgood'
  rw [Nat.zero_mul, Nat.add_zero, Nat.zero_add, Nat.mul_comm, ← List.range_eq_range'] at hyields
  rw [plainRelocs, Nat.mul_div_cancel_left n (relSize_pos abi isUseRela)]
  exact hyields

end Lists

/-! ## The two levels agree -/

section Refinement

variable {abi : Abi} {env : Env} {elf : XhElf} {E : Elf} {newFunc symidx : Nat}
  {oldFunc : Option OldFunc}

/-- An entry is handled as the relocation it is. -/
theorem elfFindAndReplaceFunc_eq (hpath : E.pathname = elf.pathname.getD "")
    (hbase : E.baseAddr = elf.baseAddr) (hbias : E.biasAddr = elf.biasAddr) (isPlt : Bool)
    (rel : ElfRel abi) (p : Proc) :
    elfFindAndReplaceFunc abi env elf newFunc oldFunc isPlt symidx rel p =
      xhElfFindAndReplaceFunc abi env E newFunc oldFunc isPlt symidx rel.reloc p := by
  have hreplace : ∀ addr, xhElfReplaceFunction abi env elf.library newFunc oldFunc addr p =
      xhElfReplaceFunction abi env E newFunc oldFunc addr p := by
    intro addr
    simp only [xhElfReplaceFunction, hpath, XhElf.library]
    rfl
  have hplt := rel.reloc_jumpSlot.not
  have hdata := rel.reloc_data
  simp only [elfFindAndReplaceFunc, xhElfFindAndReplaceFunc, hplt, hdata, hbase, hbias, hreplace]
  rfl

variable (env E newFunc symidx oldFunc) in
theorem elfRelplt_eq (hpath : E.pathname = elf.pathname.getD "") (hbase : E.baseAddr = elf.baseAddr)
    (hbias : E.biasAddr = elf.biasAddr) (l : List (ElfRel abi)) (p : Proc) :
    forEachList (elfRelpltBody abi env elf newFunc oldFunc symidx) (fun p => (.ret 0, p)) l p =
      hookRelplt abi env E newFunc oldFunc symidx (l.map ElfRel.reloc) p := by
  induction l generalizing p with
  | nil => rfl
  | cons rel l ih =>
      rw [forEachList, elfRelpltBody, elfFindAndReplaceFunc_eq hpath hbase hbias, List.map_cons,
        hookRelplt]
      rcases xhElfFindAndReplaceFunc abi env E newFunc oldFunc true symidx rel.reloc p with
        ⟨r, found, p'⟩
      dsimp only
      by_cases hr : r ≠ .ret 0
      · rw [if_pos hr, if_pos hr]
      · rw [if_neg hr, if_neg hr]
        cases found with
        | true => rfl
        | false => exact ih p'

variable (env E newFunc symidx oldFunc) in
theorem elfReldyn_eq (hpath : E.pathname = elf.pathname.getD "") (hbase : E.baseAddr = elf.baseAddr)
    (hbias : E.biasAddr = elf.biasAddr) (l : List (ElfRel abi)) (p : Proc) :
    forEachList (elfReldynBody abi env elf newFunc oldFunc symidx) (fun p => (.ret 0, p)) l p =
      hookReldyn abi env E newFunc oldFunc symidx (l.map ElfRel.reloc) p := by
  induction l generalizing p with
  | nil => rfl
  | cons rel l ih =>
      rw [forEachList, elfReldynBody, elfFindAndReplaceFunc_eq hpath hbase hbias, List.map_cons,
        hookReldyn]
      rcases xhElfFindAndReplaceFunc abi env E newFunc oldFunc false symidx rel.reloc p with
        ⟨r, found, p'⟩
      dsimp only
      by_cases hr : r ≠ .ret 0
      · rw [if_pos hr, if_pos hr]
      · rw [if_neg hr, if_neg hr]
        exact ih p'

/-- An entry changes nothing but its slot. -/
theorem elfFindAndReplaceFunc_mem (isPlt : Bool) (rel : ElfRel abi) (p : Proc) {a : Nat}
    (ha : ¬ (elf.slot rel).Contains a) :
    (elfFindAndReplaceFunc abi env elf newFunc oldFunc isPlt symidx rel p).2.2.mem a = p.mem a := by
  have hreplace : (xhElfReplaceFunction abi env elf.library newFunc oldFunc
      ((elf.biasAddr + rel.rOffset.toNat) % addressSpace abi) p).2.mem a = p.mem a := by
    simp only [xhElfReplaceFunction]
    split
    · rfl
    split
    · rfl
    split
    · rfl
    -- the protection is changed or not
    generalize (if _ ≠ needProt then env.setAddrProtect _ needProt else 0) = r
    split
    · rfl
    split
    · rfl
    · exact writeWord_of_disjoint ha
  simp only [elfFindAndReplaceFunc]
  split
  · rfl
  · split
    · rfl
    · split
      · rfl
      · split
        · rfl
        · exact hreplace

variable {mem : Memory} {android : PackedSection abi elf.isUseRela}

variable (env newFunc symidx oldFunc) in
/-- So it leaves the relocation sections as they are. -/
theorem XhElf.SameRelocs.findAndReplace {p : Proc} (h : elf.SameRelocs mem p) {rel : ElfRel abi}
    (hrel : ∀ s ∈ elf.relocSpans, (elf.slot rel).Apart s) (isPlt : Bool) :
    elf.SameRelocs mem
      (elfFindAndReplaceFunc abi env elf newFunc oldFunc isPlt symidx rel p).2.2 := by
  intro s hs a ha
  rw [elfFindAndReplaceFunc_mem isPlt rel p ((hrel s hs).symm.not_contains ha)]
  exact h s hs a ha

theorem elfRelpltBody_meets {p : Proc} (h : elf.SameRelocs mem p) {rel : ElfRel abi}
    (hrel : ∀ s ∈ elf.relocSpans, (elf.slot rel).Apart s) :
    (elfRelpltBody abi env elf newFunc oldFunc symidx rel p).Meets (elf.SameRelocs mem)
      fun r => elf.SameRelocs mem r.2 := by
  have hsame := h.findAndReplace env newFunc symidx oldFunc hrel true
  rw [elfRelpltBody]
  dsimp only
  split
  · exact hsame
  · split
    · exact hsame
    · exact hsame

theorem elfReldynBody_meets {p : Proc} (h : elf.SameRelocs mem p) {rel : ElfRel abi}
    (hrel : ∀ s ∈ elf.relocSpans, (elf.slot rel).Apart s) :
    (elfReldynBody abi env elf newFunc oldFunc symidx rel p).Meets (elf.SameRelocs mem)
      fun r => elf.SameRelocs mem r.2 := by
  have hsame := h.findAndReplace env newFunc symidx oldFunc hrel false
  rw [elfReldynBody]
  dsimp only
  split
  · exact hsame
  · exact hsame

/-- The loop over a plain section is one over its entries. -/
theorem elfHookPlain_returns {rel relSz : Nat}
    {body : ElfRel abi → Proc → Round Proc (Ended Nat × Proc)} {p : Proc} (hspan : rel ≠ 0 → ⟨rel, relSz⟩ ∈ elf.relocSpans)
    (hdvd : relSize abi elf.isUseRela ∣ relSz) (hsame : elf.SameRelocs mem p)
    (hbody : ∀ e ∈ (if rel = 0 then [] else plainRelocs abi mem rel relSz elf.isUseRela), ∀ p,
      elf.SameRelocs mem p → (body e p).Meets (elf.SameRelocs mem) fun r => elf.SameRelocs mem r.2) :
    Returns (elfHookPlain abi elf rel relSz body p)
      (forEachList body (fun p => (.ret 0, p))
        (if rel = 0 then [] else plainRelocs abi mem rel relSz elf.isUseRela) p) := by
  by_cases hrel : rel = 0
  · rw [if_pos hrel, forEachList]
    refine (returns_some (Ended.ret 0, p)).congr fun fuel => ?_
    rw [elfHookPlain, if_pos hrel]
  · rw [if_neg hrel] at hbody ⊢
    have hyields : Yields (fun p : Proc => xhElfPlainRelocIteratorNext abi p.mem) (elf.SameRelocs mem)
        (xhElfPlainRelocIteratorInit rel relSz elf.isUseRela)
        (plainRelocs abi mem rel relSz elf.isUseRela) :=
      plainRelocs_yields hdvd fun p hp => hp _ (hspan hrel)
    refine (run_forEach (fun p => (.ret 0, p)) hyields hbody hsame).congr fun fuel => ?_
    rw [elfHookPlain, if_neg hrel]

/-- The loop over the packed section is one over the entries it holds. -/
theorem elfHookPacked_returns {body : ElfRel abi → Proc → Round Proc (Ended Nat × Proc)} {p : Proc}
    (hrelocs : RelocsAt abi mem elf android) (hsame : elf.SameRelocs mem p)
    (hbody : ∀ e ∈ elf.relandroidEntries android, ∀ p, elf.SameRelocs mem p →
      (body e p).Meets (elf.SameRelocs mem) fun r => elf.SameRelocs mem r.2) :
    Returns (elfHookPacked abi elf elf.relandroid elf.relandroidSz body p)
      (forEachList body (fun p => (.ret 0, p)) (elf.relandroidEntries android) p) := by
  rw [XhElf.relandroidEntries] at hbody ⊢
  by_cases hrel : elf.relandroid = 0
  · rw [if_pos hrel, forEachList]
    refine (returns_some (Ended.ret 0, p)).congr fun fuel => ?_
    rw [elfHookPacked, if_pos hrel]
  · rw [if_neg hrel] at hbody ⊢
    -- the bytes are still those of the section
    have hbytes : ∀ p, elf.SameRelocs mem p → BytesAt p.mem elf.relandroid android.encode := by
      intro p hp
      refine (hrelocs.bytes hrel).congr fun i hi => hp ⟨elf.relandroid, elf.relandroidSz⟩ ?_ _ ?_
      · simp [XhElf.relocSpans, hrel]
      · have hle := hrelocs.length_le
        simp only [Span.Contains]
        omega
    rcases android.init elf.relandroid hrelocs.length_le with ⟨it, hinit, hbetween⟩
    have hrela := android.hasAddend_rela
    have hyields : Yields (fun p : Proc => xhElfPackedRelocIteratorNext p.mem) (elf.SameRelocs mem) it
        android.expand := (hbetween.yields hrela).comap hbytes
    refine (run_forEach (fun p => (.ret 0, p)) hyields hbody hsame).congr fun fuel => ?_
    rw [elfHookPacked, if_neg hrel, hinit p.mem (hbytes p hsame)]

section Loops

variable (env newFunc symidx oldFunc) {p : Proc} (find : String → Option Nat)
  (hrelocs : RelocsAt abi mem elf android) (hapart : elf.SlotsApart mem android)
  (hsame : elf.SameRelocs mem p)

include hrelocs hapart hsame

theorem elfHook_relplt :
    Returns (elfHookPlain abi elf elf.relplt elf.relpltSz
        (elfRelpltBody abi env elf newFunc oldFunc symidx) p)
        (hookRelplt abi env (elf.lists mem android find) newFunc oldFunc symidx
          (elf.lists mem android find).relplt p) ∧
      elf.SameRelocs mem (hookRelplt abi env (elf.lists mem android find) newFunc oldFunc symidx
        (elf.lists mem android find).relplt p).2 := by
  have hbody : ∀ e ∈ elf.relpltEntries abi mem, ∀ p, elf.SameRelocs mem p →
      (elfRelpltBody abi env elf newFunc oldFunc symidx e p).Meets (elf.SameRelocs mem)
        fun r => elf.SameRelocs mem r.2 :=
    fun e he p hp => elfRelpltBody_meets hp (hapart e (by simp [he]))
  have hspan : elf.relplt ≠ 0 → ⟨elf.relplt, elf.relpltSz⟩ ∈ elf.relocSpans :=
    fun hne => by simp [XhElf.relocSpans, hne]
  have heq := elfRelplt_eq env (elf.lists mem android find) newFunc symidx oldFunc rfl rfl rfl
    (elf.relpltEntries abi mem) p
  have hreturns := elfHookPlain_returns hspan hrelocs.relplt_dvd hsame hbody
  have hkept := forEachList_meets (fun p => (.ret 0, p)) hbody (fun p hp => hp) hsame
  rw [heq] at hkept
  exact ⟨heq ▸ hreturns, hkept⟩

theorem elfHook_reldyn :
    Returns (elfHookPlain abi elf elf.reldyn elf.reldynSz
        (elfReldynBody abi env elf newFunc oldFunc symidx) p)
        (hookReldyn abi env (elf.lists mem android find) newFunc oldFunc symidx
          (elf.lists mem android find).reldyn p) ∧
      elf.SameRelocs mem (hookReldyn abi env (elf.lists mem android find) newFunc oldFunc symidx
        (elf.lists mem android find).reldyn p).2 := by
  have hbody : ∀ e ∈ elf.reldynEntries abi mem, ∀ p, elf.SameRelocs mem p →
      (elfReldynBody abi env elf newFunc oldFunc symidx e p).Meets (elf.SameRelocs mem)
        fun r => elf.SameRelocs mem r.2 :=
    fun e he p hp => elfReldynBody_meets hp (hapart e (by simp [he]))
  have hspan : elf.reldyn ≠ 0 → ⟨elf.reldyn, elf.reldynSz⟩ ∈ elf.relocSpans :=
    fun hne => by simp [XhElf.relocSpans, hne]
  have heq := elfReldyn_eq env (elf.lists mem android find) newFunc symidx oldFunc rfl rfl rfl
    (elf.reldynEntries abi mem) p
  have hreturns := elfHookPlain_returns hspan hrelocs.reldyn_dvd hsame hbody
  have hkept := forEachList_meets (fun p => (.ret 0, p)) hbody (fun p hp => hp) hsame
  rw [heq] at hkept
  exact ⟨heq ▸ hreturns, hkept⟩

theorem elfHook_relandroid :
    Returns (elfHookPacked abi elf elf.relandroid elf.relandroidSz
        (elfReldynBody abi env elf newFunc oldFunc symidx) p)
      (hookReldyn abi env (elf.lists mem android find) newFunc oldFunc symidx
        (elf.lists mem android find).relandroid p) := by
  have hbody : ∀ e ∈ elf.relandroidEntries android, ∀ p, elf.SameRelocs mem p →
      (elfReldynBody abi env elf newFunc oldFunc symidx e p).Meets (elf.SameRelocs mem)
        fun r => elf.SameRelocs mem r.2 :=
    fun e he p hp => elfReldynBody_meets hp (hapart e (by simp [he]))
  have heq := elfReldyn_eq env (elf.lists mem android find) newFunc symidx oldFunc rfl rfl rfl
    (elf.relandroidEntries android) p
  exact heq ▸ elfHookPacked_returns hrelocs hsame hbody

end Loops

variable (env newFunc symidx oldFunc) in
/-- The three loops are those over the lists. -/
theorem elfHookSections_returns {p : Proc} (find : String → Option Nat)
    (hrelocs : RelocsAt abi p.mem elf android) (hapart : elf.SlotsApart p.mem android) :
    Returns (elfHookSections abi env elf newFunc oldFunc symidx p)
      (let (r, p') := hookRelplt abi env (elf.lists p.mem android find) newFunc oldFunc symidx
        (elf.lists p.mem android find).relplt p
      if r ≠ .ret 0 then (r, p')
      else
        let (r, p') := hookReldyn abi env (elf.lists p.mem android find) newFunc oldFunc symidx
          (elf.lists p.mem android find).reldyn p'
        if r ≠ .ret 0 then (r, p')
        else hookReldyn abi env (elf.lists p.mem android find) newFunc oldFunc symidx
          (elf.lists p.mem android find).relandroid p') := by
  have hbefore : elf.SameRelocs p.mem p := fun s _ a _ => rfl
  rcases elfHook_relplt env newFunc symidx oldFunc find hrelocs hapart hbefore with ⟨hplt, hpltSame⟩
  refine hplt.bind ?_
  generalize hookRelplt abi env (elf.lists p.mem android find) newFunc oldFunc symidx
    (elf.lists p.mem android find).relplt p = x₁ at hpltSame ⊢
  rcases x₁ with ⟨r₁, p₁⟩
  dsimp only at hpltSame ⊢
  by_cases hr₁ : r₁ ≠ .ret 0
  · simp only [if_pos hr₁]
    exact returns_some (r₁, p₁)
  simp only [if_neg hr₁]
  rcases elfHook_reldyn env newFunc symidx oldFunc find hrelocs hapart hpltSame with ⟨hdyn, hdynSame⟩
  refine hdyn.bind ?_
  generalize hookReldyn abi env (elf.lists p.mem android find) newFunc oldFunc symidx
    (elf.lists p.mem android find).reldyn p₁ = x₂ at hdynSame ⊢
  rcases x₂ with ⟨r₂, p₂⟩
  dsimp only at hdynSame ⊢
  by_cases hr₂ : r₂ ≠ .ret 0
  · simp only [if_pos hr₂]
    exact returns_some (r₂, p₂)
  simp only [if_neg hr₂]
  exact elfHook_relandroid env newFunc symidx oldFunc find hrelocs hapart hdynSame

variable {count : Nat} {name : Nat → List UInt8}

/-- `xh_elf_hook` in the memory of a library does what it does over the lists of
relocations that its sections hold, for the index of some symbol with the name, or
without one if there is none. -/
theorem elfHook_refines {p : Proc} {symbol : String} (hpath : elf.pathname ≠ none)
    (hsyms : SymbolsAt abi p.mem elf count name) (htable : TableAt abi p.mem elf count name)
    (hrelocs : RelocsAt abi p.mem elf android) (hapart : elf.SlotsApart p.mem android)
    (hsymbol : 0 ∉ ofString symbol) :
    ∃ r, Finds name (fun i => (elf.isUseGnuHash = true ∨ 0 < i) ∧ i < count) (ofString symbol) r ∧
      Returns (elfHook abi env elf newFunc oldFunc (ofString symbol) p)
        (xhElfHook abi env (elf.lists p.mem android fun _ => r) newFunc oldFunc symbol p) := by
  rcases findSymidxByName_finds hsyms htable hsymbol with ⟨r, ⟨least, hlookup⟩, hfinds⟩
  refine ⟨r, hfinds, ?_⟩
  rw [xhElfHook]
  by_cases hnull : newFunc = NULL
  · rw [if_pos hnull]
    refine (returns_some (Ended.ret xhErrnoInval, p)).congr fun fuel => ?_
    rw [elfHook, if_neg hpath, if_pos hnull]
  rw [if_neg hnull]
  cases r with
  | none =>
      refine ⟨least, fun fuel hfuel => ?_⟩
      simp only [elfHook, if_neg hpath, if_neg hnull, hlookup fuel hfuel]
      rfl
  | some symidx =>
      -- the index is found, and then the loops end
      rcases elfHookSections_returns env newFunc symidx oldFunc (fun _ => some symidx) hrelocs
        hapart with ⟨least', hsections⟩
      refine ⟨Nat.max least least', fun fuel hfuel => ?_⟩
      have hfound := hlookup fuel (le_trans (Nat.le_max_left least least') hfuel)
      simp only [elfHook, if_neg hpath, if_neg hnull, hfound]
      exact hsections fuel (le_trans (Nat.le_max_right least least') hfuel)

end Refinement

/-! ## A library with a section of each kind -/

section Example

/-- The packed section: one entry. -/
def oneEntry : PackedSection .arm false where
  rOffset := 0x20
  groups := [⟨false, false, false, false, 0, 0, 0, [⟨8, 0x202, 0⟩], by decide⟩]
  entryCount_lt := by decide
  rela := .inr (by decide)

/-- The two symbols, and three sections with one entry for the second of them. -/
def threeSections : Memory :=
  write
    (applyStores twoSymbols
      [⟨0x500, leBytes 4 0x20⟩, ⟨0x504, leBytes 4 0x216⟩, ⟨0x600, leBytes 4 0x24⟩,
        ⟨0x604, leBytes 4 0x215⟩])
    0x700 oneEntry.encode

/-- The library. -/
def threeSectionsElf : XhElf :=
  { twoSymbolsElf true with
    relplt := 0x500
    relpltSz := 8
    reldyn := 0x600
    reldynSz := 8
    relandroid := 0x700
    relandroidSz := oneEntry.encode.length }

/-- Memory that may be written. -/
def writable : Env where
  sigactionOk := true
  maps := none
  checkElfHeader _ _ := 0
  elfInit _ _ := none
  getAddrProtect _ _ := (0, needProt)
  setAddrProtect _ _ := 0
  slotReadable _ := true
  slotWritable _ := true

theorem threeSections_symbolsAt : SymbolsAt .arm threeSections threeSectionsElf 3 twoNames :=
  ⟨by decide, by decide⟩

theorem threeSections_tableAt : TableAt .arm threeSections threeSectionsElf 3 twoNames := by
  refine ⟨by decide, by decide, by decide, by decide, fun k => .inr ?_, by decide, by decide⟩
  have hbucket : (xhElfGnuHash k).toNat % threeSectionsElf.bucketCnt = 0 := Nat.mod_one _
  have hfirst : threeSectionsElf.bucketAt threeSections 0 = 1 := by decide
  simp only [hbucket]
  refine ⟨by decide, 1, by decide, by decide, by decide, fun i hstart hcount _ => ?_⟩
  have hone : 1 ≤ i := hstart
  omega

theorem threeSections_relocsAt : RelocsAt .arm threeSections threeSectionsElf oneEntry where
  relplt_dvd := by decide
  reldyn_dvd := by decide
  bytes _ := bytesAt_write _ _ _
  length_le := le_refl _

/-- A hook of the second symbol, whose three slots hold 0. -/
theorem elfHook_refines_three :
    let p : Proc := ⟨threeSections, fun _ => NULL, []⟩
    ∃ r, Finds twoNames (fun i => (threeSectionsElf.isUseGnuHash = true ∨ 0 < i) ∧ i < 3)
        (ofString "b") r ∧
      Returns (elfHook .arm writable threeSectionsElf 0x5000 none (ofString "b") p)
        (xhElfHook .arm writable (threeSectionsElf.lists p.mem oneEntry fun _ => r) 0x5000 none "b"
          p) := by
  intro p
  exact elfHook_refines (p := p) (by decide) threeSections_symbolsAt threeSections_tableAt
    threeSections_relocsAt (by unfold XhElf.SlotsApart; decide) (by decide)

end Example

end Yahfa
