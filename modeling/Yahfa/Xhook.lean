import Yahfa.Common
import Mathlib.Logic.Function.Basic

/-!
# `xhook`: redirecting the slots of loaded libraries

`YafyaMain.start` registers two hook functions and refreshes: xhook reads the
memory map, and in every library whose path matches makes the relocation slots
of the symbol point to the hook function. What a slot held before goes to the
one pointer that was registered along with the function.

What the process looks like during a refresh is an input, `Env`: the lines of
`/proc/self/maps`, what `xh_elf_init` finds in a library, what the calls that change
protections answer, and which slots can be read and stored to. A `SIGSEGV` at a slot
ends the work on its library; what was saved before stays saved. Each slot of which
the contents have been saved is recorded in `saved`, which no function reads.
-/

namespace Yahfa

open Bytes

/-! ## Errors, permissions and relocations -/

/-- `XH_ERRNO_UNKNOWN`. -/
def xhErrnoUnknown : Nat := 1001

/-- `XH_ERRNO_INVAL`. -/
def xhErrnoInval : Nat := 1002

/-- `XH_ERRNO_FORMAT`. -/
def xhErrnoFormat : Nat := 1007

/-- `PROT_READ | PROT_WRITE`. -/
def needProt : Nat := 3

/-- The types of relocations that `xh_elf.c` tells apart. -/
inductive RelocType where
  /-- `XH_ELF_R_GENERIC_JUMP_SLOT` -/
  | jumpSlot
  /-- `XH_ELF_R_GENERIC_GLOB_DAT` -/
  | globDat
  /-- `XH_ELF_R_GENERIC_ABS` -/
  | abs
  | other
deriving DecidableEq, Repr

/-- A relocation, with `r_info` taken apart. -/
structure Reloc where
  rOffset : Nat
  rSym : Nat
  rType : RelocType
deriving DecidableEq, Repr

/-- What `xh_elf_init` sets up for a library. A table that is absent is empty. -/
structure Elf where
  pathname : String
  baseAddr : Nat
  biasAddr : Nat
  relplt : List Reloc
  reldyn : List Reloc
  relandroid : List Reloc
  /-- `xh_elf_find_symidx_by_name` -/
  findSymidxByName : String → Option Nat

/-- A line of `/proc/self/maps`. -/
structure MapLine where
  baseAddr : Nat
  readable : Bool
  writable : Bool
  executable : Bool
  isPrivate : Bool
  offset : Nat
  pathname : String
deriving Repr

/-- What a refresh finds. -/
structure Env where
  /-- `sigaction` installs the handler. -/
  sigactionOk : Bool
  /-- The lines of `/proc/self/maps`, if it can be opened. -/
  maps : Option (List MapLine)
  /-- `xh_core_check_elf_header` -/
  checkElfHeader : Nat → String → Nat
  /-- `xh_elf_init`, `none` for an error or a `SIGSEGV`. -/
  elfInit : Nat → String → Option Elf
  /-- `xh_util_get_addr_protect`: the result and the protection. -/
  getAddrProtect : Nat → String → Nat × Nat
  /-- `xh_util_set_addr_protect` -/
  setAddrProtect : Nat → Nat → Nat
  /-- Whether a slot can be read. -/
  slotReadable : Nat → Bool
  /-- Whether a store to a slot goes through, when its protection has been seen to. -/
  slotWritable : Nat → Bool

/-- How a call ends: it returns, or the handler of `SIGSEGV` jumps out of it. -/
inductive Ended (α : Type) where
  | ret (r : α)
  | segv
deriving DecidableEq, Repr

/-! ## The process -/

/-- The pointers the hook functions call through. -/
inductive OldFunc where
  | oldFork
  | oldIsMagicValid
deriving DecidableEq, Repr

/-- One slot of which the contents have been saved, to make it point to `newFunc`. -/
structure Redirection where
  slot : Nat
  oldAddr : Nat
  newFunc : Nat
  oldFunc : Option OldFunc
  /-- Whether the store to the slot went through. -/
  stored : Bool
deriving DecidableEq, Repr

/-- The memory, the pointers of the hook functions, and the slots saved so far, newest
first. -/
structure Proc where
  mem : Memory
  old : OldFunc → Nat
  saved : List Redirection

/-- `xh_core_hook_info_t`; a compiled regular expression is the set of paths it
matches. -/
structure HookInfo where
  pathnameRegex : String → Bool
  symbol : String
  newFunc : Nat
  oldFunc : Option OldFunc

/-- `xh_core_ignore_info_t`; no symbol stands for all symbols. -/
structure IgnoreInfo where
  pathnameRegex : String → Bool
  symbol : Option String

/-- `xh_core_map_info_t`. -/
structure MapInfo where
  pathname : String
  baseAddr : Nat
deriving DecidableEq, Repr

/-- The statics of `xh_core.c`. -/
structure XhCore where
  hookInfo : List HookInfo
  ignoreInfo : List IgnoreInfo
  mapInfo : List MapInfo
  inited : Bool
  initOk : Bool

/-- The process the library lives in. -/
structure Process where
  core : XhCore
  proc : Proc

/-- The library just loaded, over any memory. -/
def Process.initial (mem : Memory) : Process where
  core := ⟨[], [], [], false, false⟩
  proc := ⟨mem, fun _ => NULL, []⟩

/-! ## `xh_elf.c` -/

/-- Save what the slot holds. -/
def Proc.saveOld (abi : Abi) (p : Proc) (addr newFunc : Nat) (oldFunc : Option OldFunc)
    (stored : Bool) : Proc where
  mem := p.mem
  old :=
    match oldFunc with
    | some o => Function.update p.old o (readAddr abi p.mem addr)
    | none => p.old
  saved := ⟨addr, readAddr abi p.mem addr, newFunc, oldFunc, stored⟩ :: p.saved

/-- Save what the slot holds and make it point to the hook function. -/
def Proc.redirect (abi : Abi) (p : Proc) (addr newFunc : Nat) (oldFunc : Option OldFunc) : Proc :=
  { p.saveOld abi addr newFunc oldFunc true with mem := writeAddr abi p.mem addr newFunc }

section Elf

variable (abi : Abi) (env : Env) (self : Elf) (newFunc : Nat) (oldFunc : Option OldFunc)

/-- `xh_elf_replace_function`. -/
def xhElfReplaceFunction (addr : Nat) (p : Proc) : Ended Nat × Proc :=
  -- here we assume that we always have read permission
  if ¬ env.slotReadable addr then (.segv, p)
  -- already replaced?
  else if readAddr abi p.mem addr = newFunc then (.ret 0, p)
  else
    let (r, oldProt) := env.getAddrProtect addr self.pathname
    if r ≠ 0 then (.ret r, p)
    else
      let r := if oldProt ≠ needProt then env.setAddrProtect addr needProt else 0
      if r ≠ 0 then (.ret r, p)
      -- segmentation fault sometimes, when the old func has been saved
      else if ¬ env.slotWritable addr then (.segv, p.saveOld abi addr newFunc oldFunc false)
      -- a protection that cannot be restored is only logged
      else (.ret 0, p.redirect abi addr newFunc oldFunc)

/-- `xh_elf_find_and_replace_func`; the second result is `found`. -/
def xhElfFindAndReplaceFunc (isPlt : Bool) (symidx : Nat) (rel : Reloc) (p : Proc) :
    Ended Nat × Bool × Proc :=
  if rel.rSym ≠ symidx then (.ret 0, false, p)
  else if isPlt ∧ rel.rType ≠ .jumpSlot then (.ret 0, false, p)
  else if ¬ isPlt ∧ rel.rType ≠ .globDat ∧ rel.rType ≠ .abs then (.ret 0, false, p)
  else
    let addr := (self.biasAddr + rel.rOffset) % addressSpace abi
    if addr < self.baseAddr then (.ret xhErrnoFormat, true, p)
    else
      let (r, p) := xhElfReplaceFunction abi env self newFunc oldFunc addr p
      (r, true, p)

/-- The loop of `xh_elf_hook` over `.rel(a).plt`, which ends at the first match. -/
def hookRelplt (symidx : Nat) : List Reloc → Proc → Ended Nat × Proc
  | [], p => (.ret 0, p)
  | rel :: rels, p =>
      let (r, found, p) := xhElfFindAndReplaceFunc abi env self newFunc oldFunc true symidx rel p
      if r ≠ .ret 0 then (r, p) else if found then (.ret 0, p) else hookRelplt symidx rels p

/-- The loops of `xh_elf_hook` over `.rel(a).dyn` and `.rel(a).android`. -/
def hookReldyn (symidx : Nat) : List Reloc → Proc → Ended Nat × Proc
  | [], p => (.ret 0, p)
  | rel :: rels, p =>
      let (r, _, p) := xhElfFindAndReplaceFunc abi env self newFunc oldFunc false symidx rel p
      if r ≠ .ret 0 then (r, p) else hookReldyn symidx rels p

/-- `xh_elf_hook`. -/
def xhElfHook (symbol : String) (p : Proc) : Ended Nat × Proc :=
  if newFunc = NULL then (.ret xhErrnoInval, p)
  else
    match self.findSymidxByName symbol with
    | none => (.ret 0, p)
    | some symidx =>
        let (r, p) := hookRelplt abi env self newFunc oldFunc symidx self.relplt p
        if r ≠ .ret 0 then (r, p)
        else
          let (r, p) := hookReldyn abi env self newFunc oldFunc symidx self.reldyn p
          if r ≠ .ret 0 then (r, p)
          else hookReldyn abi env self newFunc oldFunc symidx self.relandroid p

end Elf

/-! ## `xh_core.c` -/

/-- `xh_core_register`; `none` for a regular expression that is null or that
`regcomp` refuses. -/
def xhCoreRegister (pathnameRegex : Option (String → Bool)) (symbol : String) (newFunc : Nat)
    (oldFunc : Option OldFunc) (c : XhCore) : Nat × XhCore :=
  match pathnameRegex with
  | none => (xhErrnoInval, c)
  | some regex =>
      if newFunc = NULL then (xhErrnoInval, c)
      -- do not register hook after refresh()
      else if c.inited then (xhErrnoInval, c)
      else (0, { c with hookInfo := c.hookInfo ++ [⟨regex, symbol, newFunc, oldFunc⟩] })

/-- What the ignore list says of a symbol in a library. -/
inductive Ignored where
  | no
  | symbol
  | all
deriving DecidableEq, Repr

/-- The loop over `xh_core_ignore_info`. -/
def checkIgnore (pathname symbol : String) : List IgnoreInfo → Ignored
  | [] => .no
  | ii :: iis =>
      if ii.pathnameRegex pathname then
        match ii.symbol with
        | none => .all
        | some s => if s = symbol then .symbol else checkIgnore pathname symbol iis
      else checkIgnore pathname symbol iis

/-- The loop of `xh_core_hook_impl` over the registered hooks. -/
def hookRegistered (abi : Abi) (env : Env) (ignoreInfo : List IgnoreInfo) (pathname : String)
    (elf : Elf) : List HookInfo → Proc → Ended Unit × Proc
  | [], p => (.ret (), p)
  | hi :: his, p =>
      if hi.pathnameRegex pathname then
        match checkIgnore pathname hi.symbol ignoreInfo with
        | .all => (.ret (), p)
        | .symbol => hookRegistered abi env ignoreInfo pathname elf his p
        | .no =>
            -- the result is not looked at
            match xhElfHook abi env elf hi.newFunc hi.oldFunc hi.symbol p with
            | (.segv, p) => (.segv, p)
            | (.ret _, p) => hookRegistered abi env ignoreInfo pathname elf his p
      else hookRegistered abi env ignoreInfo pathname elf his p

/-- `xh_core_hook_impl`. -/
def xhCoreHookImpl (abi : Abi) (env : Env) (c : XhCore) (mi : MapInfo) (p : Proc) :
    Ended Unit × Proc :=
  match env.elfInit mi.baseAddr mi.pathname with
  | none => (.ret (), p)
  | some elf => hookRegistered abi env c.ignoreInfo mi.pathname elf c.hookInfo p

/-- `xh_core_hook`. A `SIGSEGV` is caught here and logged, as long as
`xh_core_sigsegv_enable` has its default. -/
def xhCoreHook (abi : Abi) (env : Env) (c : XhCore) (mi : MapInfo) (p : Proc) : Proc :=
  (xhCoreHookImpl abi env c mi p).2

/-- The check of `xh_core_refresh_impl` whether to hook a library: only the first
hook whose path matches counts. -/
def needsHook (ignoreInfo : List IgnoreInfo) (pathname : String) : List HookInfo → Bool
  | [] => false
  | hi :: his =>
      if hi.pathnameRegex pathname then checkIgnore pathname hi.symbol ignoreInfo = .no
      else needsHook ignoreInfo pathname his

/-- The locals of the loop of `xh_core_refresh_impl`, the tree of known libraries
and the one that replaces it. -/
structure Refresh where
  prevBaseAddr : Nat
  prevReadable : Bool
  prevOffset : Nat
  prevPathname : String
  mapInfo : List MapInfo
  refreshed : List MapInfo
  proc : Proc

/-- One library in the loop of `xh_core_refresh_impl`, from the check of its
header on. -/
def refreshLibrary (abi : Abi) (env : Env) (c : XhCore) (baseAddr : Nat) (pathname : String)
    (st : Refresh) : Refresh :=
  if env.checkElfHeader baseAddr pathname ≠ 0 then st
  else
    let known := st.mapInfo.find? (fun mi => mi.pathname = pathname)
    let mapInfo := st.mapInfo.filter (fun mi => mi.pathname ≠ pathname)
    -- we only keep the first one, that is the real base address
    if st.refreshed.any (fun mi => mi.pathname = pathname) then { st with mapInfo := mapInfo }
    else
      let mi : MapInfo := ⟨pathname, baseAddr⟩
      let st := { st with mapInfo := mapInfo, refreshed := mi :: st.refreshed }
      -- re-hook if base_addr changed
      if known = some mi then st
      else { st with proc := xhCoreHook abi env c mi st.proc }

/-- The body of the loop of `xh_core_refresh_impl`. -/
def refreshLine (abi : Abi) (env : Env) (c : XhCore) (st : Refresh) (line : MapLine) : Refresh :=
  -- do not touch the shared memory
  if ¬ line.isPrivate then st
  else if ¬ line.readable ∧ ¬ line.writable ∧ ¬ line.executable then st
  else if line.pathname.isEmpty ∨ line.pathname.startsWith "[" then st
  else if ¬ line.executable then
    -- maps of a library can begin with a non-executable one
    { st with
      prevBaseAddr := line.baseAddr
      prevReadable := line.readable
      prevOffset := line.offset
      prevPathname := line.pathname }
  else if line.offset ≠ 0 ∧
      (st.prevPathname ≠ line.pathname ∨ st.prevOffset ≠ 0 ∨ ¬ st.prevReadable) then st
  else
    let baseAddr := if line.offset ≠ 0 then st.prevBaseAddr else line.baseAddr
    if needsHook c.ignoreInfo line.pathname c.hookInfo then
      refreshLibrary abi env c baseAddr line.pathname st
    else st

/-- `xh_core_refresh_impl`. -/
def xhCoreRefreshImpl (abi : Abi) (env : Env) (s : Process) : Process :=
  match env.maps with
  | none => s
  | some lines =>
      let st := lines.foldl (refreshLine abi env s.core)
        ⟨0, false, 0, "", s.core.mapInfo, [], s.proc⟩
      { core := { s.core with mapInfo := st.refreshed }, proc := st.proc }

/-- `xh_core_init_once`. -/
def xhCoreInitOnce (env : Env) (c : XhCore) : XhCore :=
  if c.inited then c else { c with inited := true, initOk := env.sigactionOk }

/-- `xh_core_refresh(0)`. -/
def xhCoreRefresh (abi : Abi) (env : Env) (s : Process) : Nat × Process :=
  let s := { s with core := xhCoreInitOnce env s.core }
  if s.core.initOk then (0, xhCoreRefreshImpl abi env s) else (xhErrnoUnknown, s)

/-! ## `start` -/

/-- Where the hook functions are. -/
structure Hooks where
  newFork : Nat
  newIsMagicValid : Nat
  newFork_ne_null : newFork ≠ NULL
  newIsMagicValid_ne_null : newIsMagicValid ≠ NULL
  ne : newFork ≠ newIsMagicValid

/-- The paths `.*.so$` matches: neither dot is escaped, so that any character may
stand before `so`. -/
def soRegex (pathname : String) : Bool :=
  pathname.toList.reverse.take 2 = ['o', 's'] && 3 ≤ pathname.length

/-- `Java_com_android_flinger_yafya_YafyaMain_start`; the results of the calls are
not looked at. -/
def start (abi : Abi) (hooks : Hooks) (env : Env) (s : Process) : Process :=
  let (_, core) := xhCoreRegister (some soRegex) "fork" hooks.newFork (some .oldFork) s.core
  let (_, core) := xhCoreRegister (some soRegex) "_ZN3art13DexFileLoader12IsMagicValidEj"
    hooks.newIsMagicValid (some .oldIsMagicValid) core
  (xhCoreRefresh abi env { s with core := core }).2

/-- Where a call through a slot goes. `new_fork` and `new_IsMagicValid` call on
through their pointers. -/
def callThrough (abi : Abi) (hooks : Hooks) (p : Proc) (slot : Nat) : Nat :=
  let target := readAddr abi p.mem slot
  if target = hooks.newFork then p.old .oldFork
  else if target = hooks.newIsMagicValid then p.old .oldIsMagicValid
  else target

end Yahfa
