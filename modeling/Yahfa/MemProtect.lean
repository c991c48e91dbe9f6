import Yahfa.Forwarding
import Mathlib.Data.List.Infix

/-!
# The protection of an address

`xh_util.c`: what `/proc/self/maps` says of the bytes of a slot, and the pages that are
made writable for it. The kernel lists the areas in order and apart from each other.
-/

namespace Yahfa

def xhErrnoBadmaps : Nat := 1006

def xhErrnoSegverr : Nat := 1009

/-! ## `/proc/self/maps` -/

/-- The fields of a line. -/
structure Area where
  start : Nat
  stop : Nat
  readable : Bool
  writable : Bool
  executable : Bool
  isPrivate : Bool

/-- A line, and its fields if `sscanf` finds all of them. -/
structure ProtLine where
  text : String
  area : Option Area

def protRead : BitVec 32 := 1

def protWrite : BitVec 32 := 2

def protExec : BitVec 32 := 4

/-- `*prot` with the permissions of the first area. -/
def Area.grant (a : Area) (prot : BitVec 32) : BitVec 32 :=
  let prot := if a.readable then prot ||| protRead else prot
  let prot := if a.writable then prot ||| protWrite else prot
  if a.executable then prot ||| protExec else prot

/-- `*prot` without what a further area does not permit. -/
def Area.restrict (a : Area) (prot : BitVec 32) : BitVec 32 :=
  let prot := if ¬ a.readable then prot &&& ~~~protRead else prot
  let prot := if ¬ a.writable then prot &&& ~~~protWrite else prot
  if ¬ a.executable then prot &&& ~~~protExec else prot

/-- The loop of `xh_util_get_mem_protect`. -/
def memProtectLoop (pathname : Option String) (endAddr : Nat) :
    List ProtLine → Nat → BitVec 32 → Bool → Nat × BitVec 32
  | [], _, prot, _ => (xhErrnoSegverr, prot)
  | line :: lines, startAddr, prot, load0 =>
      if pathname.any fun pathname => ¬ pathname.toList <:+: line.text.toList then
        memProtectLoop pathname endAddr lines startAddr prot load0
      else
        match line.area with
        | none => memProtectLoop pathname endAddr lines startAddr prot load0
        | some a =>
            if ¬ a.isPrivate then memProtectLoop pathname endAddr lines startAddr prot load0
            else if a.start ≤ startAddr ∧ startAddr < a.stop then
              let prot := if load0 then a.grant prot else a.restrict prot
              if endAddr ≤ a.stop then (0, prot)
              else memProtectLoop pathname endAddr lines a.stop prot false
            else memProtectLoop pathname endAddr lines startAddr prot load0

/-- `xh_util_get_mem_protect`: the result and `*prot`. -/
def xhUtilGetMemProtect (abi : Abi) (maps : Option (List ProtLine)) (addr len : Nat)
    (pathname : Option String) : Nat × BitVec 32 :=
  match maps with
  | none => (xhErrnoBadmaps, 0)
  | some lines => memProtectLoop pathname (addrAdd abi addr len) lines addr 0 true

/-- `xh_util_get_addr_protect` -/
def xhUtilGetAddrProtect (abi : Abi) (maps : Option (List ProtLine)) (addr : Nat)
    (pathname : Option String) : Nat × BitVec 32 :=
  xhUtilGetMemProtect abi maps addr (pointerSize abi) pathname

/-! ## What it finds -/

/-- The private areas in the lines that name the path. -/
def areasOf (pathname : Option String) (lines : List ProtLine) : List Area :=
  lines.filterMap fun line =>
    if pathname.any fun pathname => ¬ pathname.toList <:+: line.text.toList then none
    else line.area.filter Area.isPrivate

/-- The areas are not empty, and one ends before the next begins. -/
structure InOrder (l : List Area) : Prop where
  nonempty : ∀ a ∈ l, a.start < a.stop
  apart : l.Pairwise fun a b => a.stop ≤ b.start

/-- Every byte is in some area. -/
def Covered (l : List Area) (start stop : Nat) : Prop :=
  ∀ x, start ≤ x → x < stop → ∃ a ∈ l, a.start ≤ x ∧ x < a.stop

/-- The areas that have some of the bytes. -/
def touching (l : List Area) (start stop : Nat) : List Area :=
  l.filter fun a => a.start < stop ∧ start < a.stop

/-- The permissions of an area. -/
def Area.prot (a : Area) : BitVec 32 := a.grant 0

/-- What all of the areas permit. -/
def commonProt (prot : BitVec 32) (l : List Area) : BitVec 32 :=
  l.foldl (fun prot a => prot &&& a.prot) prot

/-- Read, write and execute. -/
def protAll : BitVec 32 := 7

theorem Area.restrict_eq (a : Area) {prot : BitVec 32} (hprot : prot &&& protAll = prot) :
    a.restrict prot = prot &&& a.prot := by
  rw [← hprot, BitVec.and_assoc]
  rcases a with ⟨start, stop, r, w, x, p⟩
  cases r <;> cases w <;> cases x <;>
    simp [Area.restrict, Area.prot, Area.grant, BitVec.and_assoc, protAll, protRead, protWrite,
      protExec]

theorem Area.protAll_and (a : Area) : protAll &&& a.prot = a.prot := by
  rcases a with ⟨start, stop, r, w, x, p⟩
  cases r <;> cases w <;> cases x <;>
    simp [Area.prot, Area.grant, protAll, protRead, protWrite, protExec]

/-- The loop over the areas that count. -/
def areaLoop (endAddr : Nat) : List Area → Nat → BitVec 32 → Nat × BitVec 32
  | [], _, prot => (xhErrnoSegverr, prot)
  | a :: l, startAddr, prot =>
      if a.start ≤ startAddr ∧ startAddr < a.stop then
        if endAddr ≤ a.stop then (0, prot &&& a.prot)
        else areaLoop endAddr l a.stop (prot &&& a.prot)
      else areaLoop endAddr l startAddr prot

theorem areasOf_sublist (pathname : Option String) (lines : List ProtLine) :
    (areasOf pathname lines).Sublist (lines.filterMap ProtLine.area) := by
  induction lines with
  | nil => exact .slnil
  | cons line lines ih =>
      rw [areasOf, List.filterMap_cons, List.filterMap_cons]
      cases harea : line.area with
      | none =>
          simp only [Option.filter_none, ite_self]
          exact ih
      | some a =>
          by_cases hname :
              (pathname.any fun pathname => ¬ pathname.toList <:+: line.text.toList) = true
          · simp only [hname, if_true]
            exact ih.cons a
          · by_cases hprivate : a.isPrivate = true
            · simp only [hname, Bool.false_eq_true, if_false, Option.filter_some, hprivate, if_true]
              exact ih.cons_cons a
            · simp only [hname, Bool.false_eq_true, if_false, Option.filter_some, hprivate]
              exact ih.cons a

theorem InOrder.sublist {l l' : List Area} (h : InOrder l) (hl : l'.Sublist l) : InOrder l' where
  nonempty a ha := h.nonempty a (hl.subset ha)
  apart := h.apart.sublist hl

theorem InOrder.cons {a : Area} {l : List Area} (h : InOrder (a :: l)) :
    a.start < a.stop ∧ (∀ b ∈ l, a.stop ≤ b.start) ∧ InOrder l :=
  ⟨h.nonempty a List.mem_cons_self, (List.pairwise_cons.mp h.apart).1,
    h.sublist (List.sublist_cons_self a l)⟩

/-- A line is passed over, or is an area that counts. -/
theorem memProtectLoop_cons (pathname : Option String) (endAddr : Nat) (line : ProtLine)
    (lines : List ProtLine) (startAddr : Nat) (prot : BitVec 32) (load0 : Bool) :
    (areasOf pathname (line :: lines) = areasOf pathname lines ∧
      memProtectLoop pathname endAddr (line :: lines) startAddr prot load0 =
        memProtectLoop pathname endAddr lines startAddr prot load0) ∨
    ∃ a, areasOf pathname (line :: lines) = a :: areasOf pathname lines ∧
      memProtectLoop pathname endAddr (line :: lines) startAddr prot load0 =
        if a.start ≤ startAddr ∧ startAddr < a.stop then
          if endAddr ≤ a.stop then (0, if load0 then a.grant prot else a.restrict prot)
          else memProtectLoop pathname endAddr lines a.stop
            (if load0 then a.grant prot else a.restrict prot) false
        else memProtectLoop pathname endAddr lines startAddr prot load0 := by
  by_cases hname : (pathname.any fun pathname => ¬ pathname.toList <:+: line.text.toList) = true
  · refine .inl ⟨?_, ?_⟩
    · rw [areasOf, List.filterMap_cons, if_pos hname]
      rfl
    · rw [memProtectLoop, if_pos hname]
  · cases harea : line.area with
    | none =>
        refine .inl ⟨?_, ?_⟩
        · rw [areasOf, List.filterMap_cons, if_neg hname, harea]
          rfl
        · rw [memProtectLoop, if_neg hname, harea]
    | some a =>
        by_cases hprivate : a.isPrivate = true
        · refine .inr ⟨a, ?_, ?_⟩
          · rw [areasOf, List.filterMap_cons, if_neg hname, harea, Option.filter_some,
              if_pos hprivate]
            rfl
          · simp only [memProtectLoop, if_neg hname, harea, if_neg (not_not_intro hprivate)]
        · refine .inl ⟨?_, ?_⟩
          · rw [areasOf, List.filterMap_cons, if_neg hname, harea, Option.filter_some,
              if_neg hprivate]
            rfl
          · simp only [memProtectLoop, if_neg hname, harea, if_pos hprivate]

theorem Area.and_protAll (a : Area) (prot : BitVec 32) :
    prot &&& a.prot &&& protAll = prot &&& a.prot := by
  rw [BitVec.and_assoc, BitVec.and_comm a.prot, a.protAll_and]

/-- After the first area the loop takes away what an area does not permit. -/
theorem memProtectLoop_eq (pathname : Option String) (endAddr : Nat) (lines : List ProtLine)
    (startAddr : Nat) {prot : BitVec 32} (hprot : prot &&& protAll = prot) :
    memProtectLoop pathname endAddr lines startAddr prot false =
      areaLoop endAddr (areasOf pathname lines) startAddr prot := by
  induction lines generalizing startAddr prot with
  | nil => rfl
  | cons line lines ih =>
      rcases memProtectLoop_cons pathname endAddr line lines startAddr prot false with
        ⟨hareas, hloop⟩ | ⟨a, hareas, hloop⟩
      · rw [hareas, hloop]
        exact ih startAddr hprot
      · simp only [Bool.false_eq_true, if_false, a.restrict_eq hprot] at hloop
        rw [hareas, hloop, areaLoop, ih a.stop (a.and_protAll prot), ih startAddr hprot]

/-- Up to the first area nothing is permitted; it does not matter, when there is one. -/
theorem memProtectLoop_first (pathname : Option String) (endAddr : Nat) (lines : List ProtLine)
    (startAddr : Nat) :
    (memProtectLoop pathname endAddr lines startAddr 0 true).1 =
        (areaLoop endAddr (areasOf pathname lines) startAddr protAll).1 ∧
      ((memProtectLoop pathname endAddr lines startAddr 0 true).1 = 0 →
        memProtectLoop pathname endAddr lines startAddr 0 true =
          areaLoop endAddr (areasOf pathname lines) startAddr protAll) := by
  induction lines with
  | nil =>
      have herr : ¬ xhErrnoSegverr = 0 := by decide
      exact ⟨rfl, fun h => absurd h herr⟩
  | cons line lines ih =>
      rcases memProtectLoop_cons pathname endAddr line lines startAddr 0 true with
        ⟨hareas, hloop⟩ | ⟨a, hareas, hloop⟩
      · rw [hareas, hloop]
        exact ih
      · have hgrant : a.grant 0 = protAll &&& a.prot := a.protAll_and.symm
        simp only [if_true, hgrant] at hloop
        rw [hareas, hloop, areaLoop]
        by_cases hin : a.start ≤ startAddr ∧ startAddr < a.stop
        · rw [if_pos hin, if_pos hin, memProtectLoop_eq _ _ _ _ (a.and_protAll protAll)]
          exact ⟨rfl, fun _ => rfl⟩
        · rw [if_neg hin, if_neg hin]
          exact ih

/-! ## Areas in order -/

section Areas

variable {a : Area} {l : List Area} {start stop : Nat}

/-- An area that ends before the bytes. -/
theorem covered_cons_before (hbefore : a.stop ≤ start) :
    Covered (a :: l) start stop ↔ Covered l start stop := by
  constructor
  · intro h x hx hx'
    rcases h x hx hx' with ⟨b, hb, hxb⟩
    rcases List.mem_cons.mp hb with rfl | hb
    · omega
    · exact ⟨b, hb, hxb⟩
  · intro h x hx hx'
    rcases h x hx hx' with ⟨b, hb, hxb⟩
    exact ⟨b, List.mem_cons_of_mem a hb, hxb⟩

theorem touching_cons_before (hbefore : a.stop ≤ start) :
    touching (a :: l) start stop = touching l start stop := by
  have ha : ¬ decide (a.start < stop ∧ start < a.stop) = true := by
    rw [decide_eq_true_eq]
    omega
  rw [touching, List.filter_cons, if_neg ha, touching]

/-- An area that has the first byte: the bytes behind it are left. -/
theorem covered_cons_in (hin : a.start ≤ start ∧ start < a.stop) :
    Covered (a :: l) start stop ↔ Covered l a.stop stop := by
  rw [← covered_cons_before (Nat.le_refl a.stop)]
  constructor
  · intro h x hx hx'
    exact h x (by omega) hx'
  · intro h x hx hx'
    by_cases hxa : x < a.stop
    · exact ⟨a, List.mem_cons_self, by omega⟩
    · exact h x (by omega) hx'

theorem touching_cons_in (hl : InOrder (a :: l)) (hin : a.start ≤ start ∧ start < a.stop)
    (hstop : start < stop) : touching (a :: l) start stop = a :: touching l a.stop stop := by
  rcases hl.cons with ⟨-, hbehind, hl⟩
  have ha : decide (a.start < stop ∧ start < a.stop) = true := by
    rw [decide_eq_true_eq]
    omega
  rw [touching, List.filter_cons, if_pos ha, touching]
  refine congrArg (a :: ·) (List.filter_congr fun b hb => decide_eq_decide.mpr ?_)
  have hstart := hbehind b hb
  have hnonempty := hl.nonempty b hb
  omega

/-- No area behind the last byte. -/
theorem touching_eq_nil (hbehind : ∀ b ∈ l, stop ≤ b.start) (start : Nat) :
    touching l start stop = [] := by
  rw [touching, List.filter_eq_nil_iff]
  intro b hb
  have hstart := hbehind b hb
  rw [decide_eq_true_eq]
  omega

/-- The first byte lies before all areas. -/
theorem not_covered_of_before (hlt : start < stop) (hbefore : ∀ b ∈ l, start < b.start) :
    ¬ Covered l start stop := by
  intro h
  rcases h start (Nat.le_refl start) hlt with ⟨b, hb, hxb⟩
  have hstart := hbefore b hb
  omega

end Areas

/-- What the loop finds in areas that are in order. -/
theorem areaLoop_spec {l : List Area} (hl : InOrder l) {startAddr endAddr : Nat}
    (hlt : startAddr < endAddr) (prot : BitVec 32) :
    (Covered l startAddr endAddr ∧ areaLoop endAddr l startAddr prot =
        (0, commonProt prot (touching l startAddr endAddr))) ∨
      (¬ Covered l startAddr endAddr ∧ (areaLoop endAddr l startAddr prot).1 = xhErrnoSegverr) := by
  induction l generalizing startAddr prot with
  | nil =>
      refine .inr ⟨not_covered_of_before hlt fun b hb => ?_, rfl⟩
      cases hb
  | cons a l ih =>
      rcases hl.cons with ⟨hnonempty, hbehind, hrest⟩
      by_cases hin : a.start ≤ startAddr ∧ startAddr < a.stop
      · rw [areaLoop, if_pos hin, touching_cons_in hl hin hlt]
        by_cases hlast : endAddr ≤ a.stop
        · -- the last area
          have hnil : touching l a.stop endAddr = [] := by
            refine touching_eq_nil (fun b hb => ?_) a.stop
            exact Nat.le_trans hlast (hbehind b hb)
          refine .inl ⟨fun x hx hx' => ⟨a, List.mem_cons_self, by omega⟩, ?_⟩
          rw [if_pos hlast, hnil]
          rfl
        · rw [if_neg hlast, covered_cons_in hin]
          exact ih hrest (by omega) (prot &&& a.prot)
      · rw [areaLoop, if_neg hin]
        by_cases hbefore : a.stop ≤ startAddr
        · rw [covered_cons_before hbefore, touching_cons_before hbefore]
          exact ih hrest hlt prot
        · have hfirst : ∀ b ∈ a :: l, startAddr < b.start := by
            intro b hb
            rcases List.mem_cons.mp hb with rfl | hb
            · omega
            · have hstart := hbehind b hb
              omega
          have hnot : ¬ Covered l startAddr endAddr :=
            not_covered_of_before hlt fun b hb => hfirst b (List.mem_cons_of_mem a hb)
          rcases ih hrest hlt prot with ⟨hcovered, -⟩ | ⟨-, herr⟩
          · exact absurd hcovered hnot
          · exact .inr ⟨not_covered_of_before hlt hfirst, herr⟩

/-! ## The slot -/

/-- The kernel lists areas in order: then the result says whether every byte of the slot
is in a private area of the library, and `*prot` what all areas of the slot permit. -/
theorem xhUtilGetAddrProtect_cases (abi : Abi) {lines : List ProtLine}
    (hlines : InOrder (lines.filterMap ProtLine.area)) {addr : Nat}
    (haddr : addr + pointerSize abi < addressSpace abi) (pathname : Option String) :
    (Covered (areasOf pathname lines) addr (addr + pointerSize abi) ∧
      xhUtilGetAddrProtect abi (some lines) addr pathname =
        (0, commonProt protAll
          (touching (areasOf pathname lines) addr (addr + pointerSize abi)))) ∨
    (¬ Covered (areasOf pathname lines) addr (addr + pointerSize abi) ∧
      (xhUtilGetAddrProtect abi (some lines) addr pathname).1 = xhErrnoSegverr) := by
  have hareas := hlines.sublist (areasOf_sublist pathname lines)
  have hsize : 0 < pointerSize abi := by cases abi <;> decide
  have hend : addrAdd abi addr (pointerSize abi) = addr + pointerSize abi := Nat.mod_eq_of_lt haddr
  have hfirst := memProtectLoop_first pathname (addr + pointerSize abi) lines addr
  simp only [xhUtilGetAddrProtect, xhUtilGetMemProtect, hend]
  rcases areaLoop_spec hareas (show addr < addr + pointerSize abi by omega) protAll with
    ⟨hcovered, hloop⟩ | ⟨hcovered, hloop⟩
  · refine .inl ⟨hcovered, ?_⟩
    rw [hloop] at hfirst
    exact hfirst.2 hfirst.1
  · exact .inr ⟨hcovered, hfirst.1.trans hloop⟩

/-- Where the protection comes from `/proc/self/maps`. -/
def Env.withMaps (env : Env) (abi : Abi) (lines : List ProtLine) : Env :=
  { env with
    getAddrProtect := fun addr pathname =>
      let (r, prot) := xhUtilGetAddrProtect abi (some lines) addr (some pathname)
      (r, prot.toNat) }

section Replace

variable {abi : Abi} {env : Env} {self : Elf} {newFunc addr r prot : Nat} {p : Proc}

/-- A slot the protection of which cannot be found is left alone. -/
theorem xhElfReplaceFunction_of_error (hread : env.slotReadable addr = true)
    (hnew : readAddr abi p.mem addr ≠ newFunc)
    (herr : (env.getAddrProtect addr self.pathname).1 = r) (hr : r ≠ 0)
    (oldFunc : Option OldFunc) :
    xhElfReplaceFunction abi env self newFunc oldFunc addr p = (.ret r, p) := by
  subst herr
  rw [xhElfReplaceFunction, if_neg (not_not_intro hread), if_neg hnew]
  exact if_pos hr

/-- One whose protection is known is stored to when it permits this or can be made to. -/
theorem xhElfReplaceFunction_of_prot (hread : env.slotReadable addr = true)
    (hnew : readAddr abi p.mem addr ≠ newFunc)
    (hprot : env.getAddrProtect addr self.pathname = (0, prot)) (oldFunc : Option OldFunc) :
    (¬ (prot = needProt ∨ env.setAddrProtect addr needProt = 0) ∧
      xhElfReplaceFunction abi env self newFunc oldFunc addr p =
        (.ret (env.setAddrProtect addr needProt), p)) ∨
    ((prot = needProt ∨ env.setAddrProtect addr needProt = 0) ∧
      xhElfReplaceFunction abi env self newFunc oldFunc addr p =
        if env.slotWritable addr then (.ret 0, p.redirect abi addr newFunc oldFunc)
        else (.segv, p.saveOld abi addr newFunc oldFunc false)) := by
  rw [xhElfReplaceFunction, if_neg (not_not_intro hread), if_neg hnew, hprot]
  by_cases hneed : prot = needProt
  · refine .inr ⟨.inl hneed, ?_⟩
    cases env.slotWritable addr <;> simp [hneed]
  by_cases hset : env.setAddrProtect addr needProt = 0
  · refine .inr ⟨.inr hset, ?_⟩
    cases env.slotWritable addr <;> simp [hset]
  · exact .inl ⟨not_or.mpr ⟨hneed, hset⟩, by simp [hneed, hset]⟩

end Replace

/-- A slot that can be read is redirected, unless the store faults, when all its bytes are
in private areas of the library that permit reading and writing and no more, or when it
can be made so. Otherwise nothing changes. A slot that cannot be read faults before any
protection is looked at. -/
theorem xhElfReplaceFunction_protected (abi : Abi) (env : Env) {lines : List ProtLine}
    (hlines : InOrder (lines.filterMap ProtLine.area)) (self : Elf) {newFunc addr : Nat}
    (oldFunc : Option OldFunc) (p : Proc) (haddr : addr + pointerSize abi < addressSpace abi)
    (hnew : readAddr abi p.mem addr ≠ newFunc) :
    let areas := areasOf (some self.pathname) lines
    let result := xhElfReplaceFunction abi (env.withMaps abi lines) self newFunc oldFunc addr p
    let permitted := commonProt protAll (touching areas addr (addr + pointerSize abi)) =
      protRead ||| protWrite
    (env.slotReadable addr = false ∧ result = (.segv, p)) ∨
    (env.slotReadable addr = true ∧ ¬ Covered areas addr (addr + pointerSize abi) ∧
      result = (.ret xhErrnoSegverr, p)) ∨
    (env.slotReadable addr = true ∧ Covered areas addr (addr + pointerSize abi) ∧
      ((¬ (permitted ∨ env.setAddrProtect addr needProt = 0) ∧
        result = (.ret (env.setAddrProtect addr needProt), p)) ∨
      ((permitted ∨ env.setAddrProtect addr needProt = 0) ∧
        result =
          if env.slotWritable addr then (.ret 0, p.redirect abi addr newFunc oldFunc)
          else (.segv, p.saveOld abi addr newFunc oldFunc false)))) := by
  intro areas result permitted
  cases hread : env.slotReadable addr with
  | false => exact .inl ⟨rfl, if_pos (Bool.eq_false_iff.mp hread)⟩
  | true =>
      refine .inr ?_
      have hread' : (env.withMaps abi lines).slotReadable addr = true := hread
      rcases xhUtilGetAddrProtect_cases abi hlines haddr (some self.pathname) with
        ⟨hcovered, hprot⟩ | ⟨hcovered, herr⟩
      · have hprot' : (env.withMaps abi lines).getAddrProtect addr self.pathname =
            (0, (commonProt protAll (touching areas addr (addr + pointerSize abi))).toNat) := by
          simp only [Env.withMaps, hprot, areas]
        have hneed : (commonProt protAll (touching areas addr (addr + pointerSize abi))).toNat =
            needProt ↔ permitted := by
          rw [show needProt = (protRead ||| protWrite).toNat from rfl]
          exact BitVec.toNat_inj
        have hcases := xhElfReplaceFunction_of_prot hread' hnew hprot' oldFunc
        rw [hneed] at hcases
        exact .inr ⟨rfl, hcovered, hcases⟩
      · exact .inl ⟨rfl, hcovered,
          xhElfReplaceFunction_of_error hread' hnew herr (by decide) oldFunc⟩

/-- A library of two areas, the second of which is writable. -/
def libaLines : List ProtLine :=
  [⟨"10000-11000 r--p 00000000 fe:00 12 /system/lib/liba.so\n",
    some ⟨0x10000, 0x11000, true, false, false, true⟩⟩,
   ⟨"11000-12000 rw-p 00001000 fe:00 12 /system/lib/liba.so\n",
    some ⟨0x11000, 0x12000, true, true, false, true⟩⟩]

theorem libaLines_inOrder : InOrder (libaLines.filterMap ProtLine.area) := by
  refine ⟨?_, ?_⟩
  · simp [libaLines]
  · simp [libaLines]

/-- A slot of which two bytes are in each area. -/
theorem xhElfReplaceFunction_protected_across :
    let self : Elf := ⟨"/system/lib/liba.so", 0x10000, 0x10000, [], [], [], fun _ => none⟩
    let p : Proc := ⟨fun _ => 0, fun _ => NULL, []⟩
    let areas := areasOf (some self.pathname) libaLines
    let result := xhElfReplaceFunction .i386 (twoLibraries.withMaps .i386 libaLines) self 0x5000
      none 0x10ffe p
    let permitted := commonProt protAll (touching areas 0x10ffe 0x11002) = protRead ||| protWrite
    (twoLibraries.slotReadable 0x10ffe = false ∧ result = (.segv, p)) ∨
    (twoLibraries.slotReadable 0x10ffe = true ∧ ¬ Covered areas 0x10ffe 0x11002 ∧
      result = (.ret xhErrnoSegverr, p)) ∨
    (twoLibraries.slotReadable 0x10ffe = true ∧ Covered areas 0x10ffe 0x11002 ∧
      ((¬ (permitted ∨ twoLibraries.setAddrProtect 0x10ffe needProt = 0) ∧
        result = (.ret (twoLibraries.setAddrProtect 0x10ffe needProt), p)) ∨
      ((permitted ∨ twoLibraries.setAddrProtect 0x10ffe needProt = 0) ∧
        result =
          if twoLibraries.slotWritable 0x10ffe then (.ret 0, p.redirect .i386 0x10ffe 0x5000 none)
          else (.segv, p.saveOld .i386 0x10ffe 0x5000 none false)))) :=
  xhElfReplaceFunction_protected .i386 twoLibraries libaLines_inOrder
    ⟨"/system/lib/liba.so", 0x10000, 0x10000, [], [], [], fun _ => none⟩ none
    ⟨fun _ => 0, fun _ => NULL, []⟩ (by decide) (by decide)

/-! ## The pages of a slot -/

def pageSize : Nat := 4096

/-- `PAGE_START` -/
def pageStart (addr : Nat) : Nat := addr - addr % pageSize

/-- `PAGE_END` -/
def pageEnd (abi : Abi) (addr : Nat) : Nat :=
  addrAdd abi (pageStart (addrAdd abi addr (pointerSize abi - 1))) pageSize

/-- `PAGE_COVER` -/
def pageCover (abi : Abi) (addr : Nat) : Nat :=
  addrAdd abi (pageEnd abi addr) (addressSpace abi - pageStart addr)

/-- `xh_util_set_addr_protect`, where `mprotect` gives an error number or none. -/
def xhUtilSetAddrProtect (abi : Abi) (mprotect : Nat → Nat → Nat → Option Nat) (addr prot : Nat) :
    Nat :=
  match mprotect (pageStart addr) (pageCover abi addr) prot with
  | none => 0
  | some errno => if errno = 0 then xhErrnoUnknown else errno

/-- From the page of the first byte to the end of the page of the last one. -/
theorem pageCover_eq (abi : Abi) {addr : Nat} (haddr : addr + pointerSize abi ≤ addressSpace abi) :
    pageStart addr + pageCover abi addr = pageStart (addr + pointerSize abi - 1) + pageSize := by
  cases abi <;>
    simp only [pageCover, pageEnd, addrAdd, pageStart, pageSize, addressSpace, pointerSize,
      Nat.reducePow, Nat.reduceSub] at haddr ⊢ <;> omega

/-- The pages that are changed are those that have a byte of the slot, and the result is 0
exactly when they have been changed. -/
theorem xhUtilSetAddrProtect_exact (abi : Abi) (mprotect : Nat → Nat → Nat → Option Nat)
    {addr : Nat} (prot : Nat) (haddr : addr + pointerSize abi ≤ addressSpace abi) :
    (xhUtilSetAddrProtect abi mprotect addr prot = 0 ↔
      mprotect (pageStart addr) (pageCover abi addr) prot = none) ∧
    ∀ x, (pageStart addr ≤ x ∧ x < pageStart addr + pageCover abi addr) ↔
      ∃ y, addr ≤ y ∧ y < addr + pointerSize abi ∧ x / pageSize = y / pageSize := by
  refine ⟨?_, fun x => ?_⟩
  · rw [xhUtilSetAddrProtect]
    cases mprotect (pageStart addr) (pageCover abi addr) prot with
    | none => exact iff_of_true rfl rfl
    | some errno =>
        refine iff_of_false ?_ (Option.some_ne_none errno)
        by_cases herrno : errno = 0
        · simp only [if_pos herrno]
          decide
        · simp only [if_neg herrno]
          exact herrno
  · have hsize : 1 ≤ pointerSize abi ∧ pointerSize abi ≤ 8 := by cases abi <;> decide
    rw [pageCover_eq abi haddr]
    simp only [pageStart, pageSize]
    constructor
    · rintro ⟨hstart, hstop⟩
      -- the page of the first byte, or the page of the last one
      by_cases hfirst : x / 4096 = addr / 4096
      · exact ⟨addr, Nat.le_refl _, by omega, hfirst⟩
      · exact ⟨addr + pointerSize abi - 1, by omega, by omega, by omega⟩
    · rintro ⟨y, hle, hlt, hpage⟩
      omega

/-- A slot on the border of two pages. -/
theorem xhUtilSetAddrProtect_exact_across :
    (xhUtilSetAddrProtect .i386 (fun _ _ _ => none) 0x10ffe needProt = 0 ↔
      (none : Option Nat) = none) ∧
    ∀ x, (pageStart 0x10ffe ≤ x ∧ x < pageStart 0x10ffe + pageCover .i386 0x10ffe) ↔
      ∃ y, 0x10ffe ≤ y ∧ y < 0x10ffe + pointerSize .i386 ∧ x / pageSize = y / pageSize :=
  xhUtilSetAddrProtect_exact .i386 (fun _ _ _ => none) needProt (by decide)

end Yahfa
