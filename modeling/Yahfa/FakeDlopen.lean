import Yahfa.Common
import Yahfa.Base.LastHit
import Mathlib.Data.Nat.Find

/-!
# `fake_dlopen.c`: finding the loader's own `dlopen` and `dlsym`

`dl_iterate_phdr` reports the loaded modules one by one. `callback` takes the
load address of `libnativeloader.so`, and of the linker it scans the symbol table
for two names. What it gathers is in three statics, the record `Loader`.

The symbol scan has no bound: its only exit is that both pointers are set. The
entry behind the last one of a table has no meaning, so a scan that gets there
has no result (`none`). `callback_scanSafe_iff` says when that happens;
`initAll_eq` that otherwise the order of the modules does not matter.
-/

namespace Yahfa

/-! ## Modules -/

/-- `LINKER`. -/
def linkerPrefix : String := "/system/bin/linker"

/-- `LIBNATIVELOADER`. -/
def libnativeloader : Abi → String
  | .i386 => "/apex/com.android.art/lib/libnativeloader.so"
  | .x86_64 => "/apex/com.android.art/lib64/libnativeloader.so"
  | .arm => "/apex/com.android.art/lib/libnativeloader.so"
  | .aarch64 => "/apex/com.android.art/lib64/libnativeloader.so"

/-- `ElfW(Phdr)`. -/
structure Phdr where
  pType : Int
  pVaddr : Nat
deriving DecidableEq, Repr

/-- `ElfW(Dyn)`. -/
structure Dyn where
  dTag : Int
  dVal : Nat
deriving DecidableEq, Repr

/-- `ElfW(Sym)`. -/
structure Sym where
  stName : Nat
  stValue : Nat
deriving DecidableEq, Repr

def ptDynamic : Int := 2
def dtStrtab : Int := 5
def dtSymtab : Int := 6

/-- `struct dl_phdr_info`, with what the module's memory holds: the dynamic
entries from an address up to the one with tag 0, the symbol entries from an
address to the end of their table, and the string at an address. -/
structure Module where
  dlpiName : String
  dlpiAddr : Nat
  dlpiPhdr : List Phdr
  dynamicAt : Nat → List Dyn
  symbolsAt : Nat → List Sym
  stringAt : Nat → String

/-! ## `callback` -/

/-- The statics of the file. -/
structure Loader where
  loaderDlopen : Nat
  loaderDlsym : Nat
  libnativeloaderBase : Nat
deriving DecidableEq, Repr

/-- The statics as the library is loaded. -/
def Loader.initial : Loader := ⟨NULL, NULL, 0⟩

/-- The loop over the dynamic entries, for `linker_dynsym` and `linker_dynstr`. -/
def scanDynamic (abi : Abi) (info : Module) (dynsym dynstr : Nat) : List Dyn → Nat × Nat
  | [] => (dynsym, dynstr)
  | dyn :: rest =>
      if dyn.dTag = dtSymtab then
        scanDynamic abi info (addrAdd abi info.dlpiAddr dyn.dVal) dynstr rest
      else if dyn.dTag = dtStrtab then
        scanDynamic abi info dynsym (addrAdd abi info.dlpiAddr dyn.dVal) rest
      else scanDynamic abi info dynsym dynstr rest

/-- The name of a symbol. -/
def symName (abi : Abi) (info : Module) (dynstr : Nat) (sym : Sym) : String :=
  info.stringAt (addrAdd abi dynstr sym.stName)

/-- What one entry does to the pointers. -/
def visitSymbol (abi : Abi) (info : Module) (dynstr : Nat) (s : Loader) (sym : Sym) : Loader :=
  if symName abi info dynstr sym = "__loader_dlopen" then
    { s with loaderDlopen := addrAdd abi info.dlpiAddr sym.stValue }
  else if symName abi info dynstr sym = "__loader_dlsym" then
    { s with loaderDlsym := addrAdd abi info.dlpiAddr sym.stValue }
  else s

/-- Both pointers are set. -/
def Loader.BothFound (s : Loader) : Prop := s.loaderDlopen ≠ NULL ∧ s.loaderDlsym ≠ NULL

instance (s : Loader) : Decidable s.BothFound := inferInstanceAs (Decidable (_ ∧ _))

/-- The loop over the symbol entries. -/
def scanSymbols (abi : Abi) (info : Module) (dynstr : Nat) : Loader → List Sym → Option Loader
  -- the loop does not end here: it reads the entry behind the table
  | _, [] => none
  | s, sym :: rest =>
      let s := visitSymbol abi info dynstr s sym
      if s.BothFound then some s else scanSymbols abi info dynstr s rest

/-- The loop over the program headers; it ends with the first `PT_DYNAMIC`. -/
def scanPhdrs (abi : Abi) (info : Module) (s : Loader) : List Phdr → Option Loader
  | [] => some s
  | phdr :: rest =>
      if phdr.pType = ptDynamic then
        let (dynsym, dynstr) := scanDynamic abi info NULL NULL
          (info.dynamicAt (addrAdd abi info.dlpiAddr phdr.pVaddr))
        scanSymbols abi info dynstr s (info.symbolsAt dynsym)
      else scanPhdrs abi info s rest

/-- All three statics are set. -/
def Loader.AllFound (s : Loader) : Prop := s.BothFound ∧ s.libnativeloaderBase ≠ 0

instance (s : Loader) : Decidable s.AllFound := inferInstanceAs (Decidable (_ ∧ _))

/-- `strncmp(info->dlpi_name, LINKER, sizeof(LINKER)-1) == 0`. -/
def Module.IsLinker (info : Module) : Prop := linkerPrefix.toList <+: info.dlpiName.toList

instance (info : Module) : Decidable info.IsLinker :=
  inferInstanceAs (Decidable (_ <+: _))

/-- `callback`. -/
def callback (abi : Abi) (s : Loader) (info : Module) : Option (Loader × Int) :=
  if info.dlpiName = libnativeloader abi then
    some ({ s with libnativeloaderBase := info.dlpiAddr }, 0)
  else if info.IsLinker then
    (scanPhdrs abi info s info.dlpiPhdr).map fun s => (s, 0)
  else if s.AllFound then
    some (s, 1) -- all found, stop the dl_iterate_phdr iteration
  else some (s, 0)

/-! ## `init_dlopen`, `art_dlopen` and `art_dlsym` -/

/-- `dl_iterate_phdr`: call back for every module, until the result is not zero. -/
def dlIteratePhdr {σ : Type} (callback : σ → Module → Option (σ × Int)) :
    σ → List Module → Option σ
  | s, [] => some s
  | s, info :: rest =>
      (callback s info).bind fun (s, r) => if r ≠ 0 then some s else dlIteratePhdr callback s rest

/-- `init_dlopen`. -/
def initDlopen (abi : Abi) (s : Loader) (modules : List Module) : Option Loader :=
  dlIteratePhdr (callback abi) s modules

/-- `art_dlopen`; `call` is a call of the function at an address. -/
def artDlopen (call : Nat → String → Int → Nat → Nat) (s : Loader) (name : String) (flags : Int) :
    Nat :=
  if s.AllFound then call s.loaderDlopen name flags s.libnativeloaderBase else NULL

/-- `art_dlsym`. -/
def artDlsym (call : Nat → Nat → String → Nat → Nat) (s : Loader) (handle : Nat) (name : String) :
    Nat :=
  if handle = NULL then NULL
  else if s.AllFound then call s.loaderDlsym handle name s.libnativeloaderBase
  else NULL

/-! ## Where the symbol scan ends -/

section Scan

variable {abi : Abi} {info : Module} {dynsym dynstr : Nat} {s s' : Loader} {syms : List Sym}

/-- The symbol tables the module's first `PT_DYNAMIC` segment gives. -/
def Module.tables (info : Module) (abi : Abi) : Option (Nat × Nat) :=
  (info.dlpiPhdr.find? fun phdr => phdr.pType = ptDynamic).map fun phdr =>
    scanDynamic abi info NULL NULL (info.dynamicAt (addrAdd abi info.dlpiAddr phdr.pVaddr))

/-- The address some entries leave in the pointer for a name: that of the last
entry with the name, or what was there before. -/
def lastAddr (abi : Abi) (info : Module) (dynstr : Nat) (name : String) (before : Nat)
    (syms : List Sym) : Nat :=
  match LastHit.last (fun sym => symName abi info dynstr sym = name) syms with
  | some sym => addrAdd abi info.dlpiAddr sym.stValue
  | none => before

@[simp] theorem lastAddr_nil (name : String) (before : Nat) :
    lastAddr abi info dynstr name before [] = before := rfl

theorem lastAddr_snoc (name : String) (before : Nat) (syms : List Sym) (sym : Sym) :
    lastAddr abi info dynstr name before (syms ++ [sym]) =
      if symName abi info dynstr sym = name then addrAdd abi info.dlpiAddr sym.stValue
      else lastAddr abi info dynstr name before syms := by
  unfold lastAddr
  rw [LastHit.last_snoc]
  by_cases hname : symName abi info dynstr sym = name <;> simp [hname]

/-- A name that none of the entries has keeps its pointer. -/
theorem lastAddr_of_missing {name : String} {before : Nat}
    (h : ∀ sym ∈ syms, symName abi info dynstr sym ≠ name) :
    lastAddr abi info dynstr name before syms = before := by
  unfold lastAddr
  rw [LastHit.last_eq_none_iff.mpr fun sym hsym => decide_eq_false (h sym hsym)]

/-- The pointers after some entries. -/
theorem foldl_visitSymbol (s : Loader) (syms : List Sym) :
    syms.foldl (visitSymbol abi info dynstr) s =
      { s with
        loaderDlopen := lastAddr abi info dynstr "__loader_dlopen" s.loaderDlopen syms
        loaderDlsym := lastAddr abi info dynstr "__loader_dlsym" s.loaderDlsym syms } := by
  induction syms using List.reverseRecOn with
  | nil => rfl
  | append_singleton syms sym ih =>
      rw [List.foldl_append, ih, lastAddr_snoc, lastAddr_snoc]
      unfold List.foldl visitSymbol
      by_cases hdlopen : symName abi info dynstr sym = "__loader_dlopen"
      · simp [hdlopen]
      · by_cases hdlsym : symName abi info dynstr sym = "__loader_dlsym" <;> simp [hdlopen, hdlsym]

/-- When all entries with a name are the same, its pointer is either set to that
entry's address or left as it was. -/
theorem lastAddr_of_same {name : String} {sym : Sym} (before : Nat)
    (h : ∀ x ∈ syms, symName abi info dynstr x = name → x = sym) :
    lastAddr abi info dynstr name before syms = addrAdd abi info.dlpiAddr sym.stValue ∨
      lastAddr abi info dynstr name before syms = before := by
  unfold lastAddr
  cases hlast : LastHit.last (fun x => symName abi info dynstr x = name) syms with
  | none => exact Or.inr rfl
  | some x =>
      rcases LastHit.last_eq_some hlast with ⟨hx, hname⟩
      obtain rfl : x = sym := h x hx (of_decide_eq_true hname)
      exact Or.inl rfl

/-- When there is one such entry, its pointer is set. -/
theorem lastAddr_of_once {name : String} {sym : Sym} (before : Nat)
    (h : syms.filter (fun x => symName abi info dynstr x = name) = [sym]) :
    lastAddr abi info dynstr name before syms = addrAdd abi info.dlpiAddr sym.stValue := by
  have honly : ∀ x, (x ∈ syms ∧ symName abi info dynstr x = name) ↔ x = sym := by
    intro x
    have hx : x ∈ syms.filter (fun x => symName abi info dynstr x = name) ↔ x = sym := by
      rw [h, List.mem_singleton]
    simpa using hx
  rcases (honly sym).mpr rfl with ⟨hmem, hname⟩
  have hhit : decide (symName abi info dynstr sym = name) = true := decide_eq_true hname
  rcases LastHit.exists_last_eq_some (p := fun x => symName abi info dynstr x = name) hmem hhit with
    ⟨x, hlast⟩
  rcases LastHit.last_eq_some hlast with ⟨hx, hxname⟩
  obtain rfl : x = sym := (honly x).mp ⟨hx, of_decide_eq_true hxname⟩
  unfold lastAddr
  rw [hlast]

/-- The scan ends with the first entry after which both pointers are set, if
there is one. -/
theorem scanSymbols_eq_some :
    scanSymbols abi info dynstr s syms = some s' ↔
      ∃ k < syms.length, s' = (syms.take (k + 1)).foldl (visitSymbol abi info dynstr) s ∧
        s'.BothFound ∧
        ∀ j < k, ¬ ((syms.take (j + 1)).foldl (visitSymbol abi info dynstr) s).BothFound := by
  induction syms generalizing s with
  | nil => simp [scanSymbols]
  | cons sym rest ih =>
      unfold scanSymbols
      by_cases hfound : (visitSymbol abi info dynstr s sym).BothFound
      · -- the scan ends at the first entry
        simp only [hfound, if_true, Option.some.injEq]
        constructor
        · rintro rfl
          exact ⟨0, by simp, by simp, hfound, by simp⟩
        · rintro ⟨k, -, rfl, -, hfirst⟩
          cases k with
          | zero => simp
          | succ k => exact absurd hfound (by simpa using hfirst 0 (by omega))
      · -- it goes on, and what it finds is one entry further on
        simp only [hfound, if_false, ih]
        constructor
        · rintro ⟨k, hk, hs, hboth, hfirst⟩
          refine ⟨k + 1, by simpa using hk, by simpa using hs, hboth, ?_⟩
          intro j hj
          cases j with
          | zero => simpa using hfound
          | succ j => simpa using hfirst j (by omega)
        · rintro ⟨k, hk, hs, hboth, hfirst⟩
          cases k with
          | zero =>
              obtain rfl : s' = visitSymbol abi info dynstr s sym := by simpa using hs
              exact absurd hboth hfound
          | succ k =>
              refine ⟨k, by simpa using hk, by simpa using hs, hboth, ?_⟩
              intro j hj
              simpa using hfirst (j + 1) (by omega)

/-- Some entry of the table is such that after it both pointers are set: each is
the address of the last entry with its name so far, or was set before. -/
def FoundInside (abi : Abi) (info : Module) (dynstr : Nat) (s : Loader) (syms : List Sym) : Prop :=
  ∃ k < syms.length,
    lastAddr abi info dynstr "__loader_dlopen" s.loaderDlopen (syms.take (k + 1)) ≠ NULL ∧
    lastAddr abi info dynstr "__loader_dlsym" s.loaderDlsym (syms.take (k + 1)) ≠ NULL

theorem foundInside_iff :
    FoundInside abi info dynstr s syms ↔
      ∃ k < syms.length,
        ((syms.take (k + 1)).foldl (visitSymbol abi info dynstr) s).BothFound := by
  simp only [FoundInside, foldl_visitSymbol, Loader.BothFound]

/-- The scan stays inside the table exactly when both pointers get set there. -/
theorem scanSymbols_isSome_iff :
    (∃ s', scanSymbols abi info dynstr s syms = some s') ↔ FoundInside abi info dynstr s syms := by
  rw [foundInside_iff]
  constructor
  · rintro ⟨s', hs⟩
    rcases scanSymbols_eq_some.mp hs with ⟨k, hk, rfl, hboth, -⟩
    exact ⟨k, hk, hboth⟩
  · -- the first such entry is where the scan ends
    intro h
    have hfind := Nat.find_spec h
    refine ⟨_, scanSymbols_eq_some.mpr ⟨Nat.find h, hfind.1, rfl, hfind.2, ?_⟩⟩
    intro j hj hboth
    exact Nat.find_min h hj ⟨lt_trans hj hfind.1, hboth⟩

/-- The program header loop scans the tables of the first `PT_DYNAMIC`. -/
theorem scanPhdrs_eq (h : info.tables abi = some (dynsym, dynstr)) :
    scanPhdrs abi info s info.dlpiPhdr =
      scanSymbols abi info dynstr s (info.symbolsAt dynsym) := by
  unfold Module.tables at h
  generalize info.dlpiPhdr = phdrs at h
  induction phdrs with
  | nil => simp at h
  | cons phdr rest ih =>
      unfold scanPhdrs
      by_cases hdynamic : phdr.pType = ptDynamic
      · have htables : scanDynamic abi info NULL NULL
            (info.dynamicAt (addrAdd abi info.dlpiAddr phdr.pVaddr)) = (dynsym, dynstr) := by
          simpa [hdynamic] using h
        simp only [hdynamic, if_true, htables]
      · rw [if_neg hdynamic]
        exact ih (by simpa [hdynamic] using h)

/-- The linker is not `libnativeloader.so`. -/
theorem Module.IsLinker.name_ne (h : info.IsLinker) : info.dlpiName ≠ libnativeloader abi := by
  intro heq
  unfold Module.IsLinker at h
  rw [heq] at h
  revert h
  cases abi <;> decide +kernel

theorem callback_linker (h : info.IsLinker) (htables : info.tables abi = some (dynsym, dynstr)) :
    callback abi s info =
      (scanSymbols abi info dynstr s (info.symbolsAt dynsym)).map fun s => (s, 0) := by
  unfold callback
  rw [if_neg h.name_ne, if_pos h, scanPhdrs_eq htables]

/-- `art_dlopen` and `art_dlsym` return NULL, whatever the loader's functions do. -/
def Loader.Unusable (s : Loader) : Prop :=
  (∀ call name flags, artDlopen call s name flags = NULL) ∧
    ∀ call handle name, artDlsym call s handle name = NULL

/-- The callback ends without reading behind the symbol table, and the pointer of
a name that is missing stays NULL. -/
def ScanSafe (abi : Abi) (s : Loader) (info : Module) (dynstr : Nat) (syms : List Sym) : Prop :=
  ∃ s', callback abi s info = some (s', 0) ∧
    ((∀ sym ∈ syms, symName abi info dynstr sym ≠ "__loader_dlopen") → s.loaderDlopen = NULL →
      s'.loaderDlopen = NULL ∧ s'.Unusable) ∧
    ((∀ sym ∈ syms, symName abi info dynstr sym ≠ "__loader_dlsym") → s.loaderDlsym = NULL →
      s'.loaderDlsym = NULL ∧ s'.Unusable)

/-- The callback is safe on a linker exactly when some entry of its table is such
that both pointers are set after it. -/
theorem callback_scanSafe_iff (h : info.IsLinker)
    (htables : info.tables abi = some (dynsym, dynstr)) (s : Loader) :
    ScanSafe abi s info dynstr (info.symbolsAt dynsym) ↔
      FoundInside abi info dynstr s (info.symbolsAt dynsym) := by
  constructor
  · rintro ⟨s', hcallback, -⟩
    rw [callback_linker h htables] at hcallback
    rcases Option.map_eq_some_iff.mp hcallback with ⟨s₁, hscan, -⟩
    exact scanSymbols_isSome_iff.mp ⟨s₁, hscan⟩
  · intro hfound
    rcases scanSymbols_isSome_iff.mpr hfound with ⟨s', hscan⟩
    -- a name that is missing, with its pointer NULL before, would not have let the scan end
    have hmem : ∀ {k : Nat} {sym : Sym}, sym ∈ (info.symbolsAt dynsym).take (k + 1) →
        sym ∈ info.symbolsAt dynsym := fun hk => List.mem_of_mem_take hk
    rcases hfound with ⟨k, -, hdlopen, hdlsym⟩
    refine ⟨s', by rw [callback_linker h htables, hscan]; rfl, ?_, ?_⟩
    · intro hmissing hnull
      exact absurd ((lastAddr_of_missing fun sym hs => hmissing sym (hmem hs)).trans hnull) hdlopen
    · intro hmissing hnull
      exact absurd ((lastAddr_of_missing fun sym hs => hmissing sym (hmem hs)).trans hnull) hdlsym

/-- A 64-bit linker at `0x7000` with the given names in its symbol table. -/
def linkerWith (names : List String) : Module where
  dlpiName := "/system/bin/linker64"
  dlpiAddr := 0x7000
  dlpiPhdr := [⟨1, 0⟩, ⟨2, 0x100⟩]
  dynamicAt addr := if addr = 0x7100 then [⟨5, 0x200⟩, ⟨6, 0x300⟩] else []
  symbolsAt addr :=
    if addr = 0x7300 then (List.range names.length).map fun i => ⟨i, 0x1000 + 16 * i⟩ else []
  stringAt addr := names.getD (addr - 0x7200) ""

/-- A table that defines both names. -/
theorem callback_scanSafe_iff_both :
    let info := linkerWith ["", "__loader_dlopen", "__loader_dlsym"]
    ScanSafe .aarch64 .initial info 0x7200 (info.symbolsAt 0x7300) ↔
      FoundInside .aarch64 info 0x7200 .initial (info.symbolsAt 0x7300) :=
  callback_scanSafe_iff (by decide +kernel) (by decide +kernel) .initial

/-- On a linker without `__loader_dlsym` the scan leaves the symbol table. -/
theorem callback_scans_past_table :
    ¬ ∀ (info : Module) (dynsym dynstr : Nat), info.IsLinker →
      info.tables .aarch64 = some (dynsym, dynstr) →
      ScanSafe .aarch64 .initial info dynstr (info.symbolsAt dynsym) := by
  intro h
  rcases h (linkerWith ["", "__loader_dlopen", "malloc"]) 0x7300 0x7200 (by decide +kernel)
    (by decide +kernel) with ⟨s', hcallback, -⟩
  have hpast : callback .aarch64 .initial (linkerWith ["", "__loader_dlopen", "malloc"]) = none := by
    decide +kernel
  rw [hpast] at hcallback
  cases hcallback

end Scan

/-! ## Runs of `init_dlopen` -/

section Runs

variable {abi : Abi} {info : Module} {s s' : Loader}

/-- `init_dlopen` called again and again, each time for the modules then loaded. -/
def initAll (abi : Abi) (s : Loader) (runs : List (List Module)) : Option Loader :=
  runs.foldlM (initDlopen abi) s

/-- The modules whose name is `LIBNATIVELOADER`. -/
def Module.IsNativeloader (abi : Abi) (info : Module) : Prop := info.dlpiName = libnativeloader abi

instance (abi : Abi) (info : Module) : Decidable (info.IsNativeloader abi) :=
  inferInstanceAs (Decidable (_ = _))

/-- What the modules of a process have to say about the three statics: `dlopen`
and `dlsym` are where its one linker defines the two names, `base` is where
`libnativeloader.so` is loaded, or 0. -/
structure NativeProcess (abi : Abi) where
  linker : Module
  dynsym : Nat
  dynstr : Nat
  dlopenSym : Sym
  dlsymSym : Sym
  nativeloader : Option Module
  linker_name : linker.IsLinker
  tables : linker.tables abi = some (dynsym, dynstr)
  dlopen_once : (linker.symbolsAt dynsym).filter
    (fun sym => symName abi linker dynstr sym = "__loader_dlopen") = [dlopenSym]
  dlopen_ne_null : addrAdd abi linker.dlpiAddr dlopenSym.stValue ≠ NULL
  dlsym_once : (linker.symbolsAt dynsym).filter
    (fun sym => symName abi linker dynstr sym = "__loader_dlsym") = [dlsymSym]
  dlsym_ne_null : addrAdd abi linker.dlpiAddr dlsymSym.stValue ≠ NULL

namespace NativeProcess

variable (P : NativeProcess abi)

/-- The modules of the process, in any order. -/
structure Loads (modules : List Module) : Prop where
  linker : modules.filter (fun info => info.IsLinker) = [P.linker]
  nativeloader : modules.filter (fun info => info.IsNativeloader abi) = P.nativeloader.toList

/-- The values the statics are to get. -/
def found : Loader where
  loaderDlopen := addrAdd abi P.linker.dlpiAddr P.dlopenSym.stValue
  loaderDlsym := addrAdd abi P.linker.dlpiAddr P.dlsymSym.stValue
  libnativeloaderBase := (P.nativeloader.map Module.dlpiAddr).getD 0

/-- Each part of the statics is as it was loaded or as it is to be; the two
pointers are set together. -/
structure Inv (s : Loader) : Prop where
  pointers : (s.loaderDlopen = NULL ∧ s.loaderDlsym = NULL) ∨
    (s.loaderDlopen = P.found.loaderDlopen ∧ s.loaderDlsym = P.found.loaderDlsym)
  base : s.libnativeloaderBase = 0 ∨ s.libnativeloaderBase = P.found.libnativeloaderBase

variable {P} {modules : List Module}

theorem Loads.perm (h : P.Loads modules) {modules' : List Module}
    (hperm : modules'.Perm modules) : P.Loads modules' where
  linker := by
    have hfilter := hperm.filter fun info => info.IsLinker
    rw [h.linker] at hfilter
    exact List.perm_singleton.mp hfilter
  nativeloader := by
    have hfilter := hperm.filter fun info => info.IsNativeloader abi
    rw [h.nativeloader] at hfilter
    cases hnative : P.nativeloader with
    | none => simpa [hnative] using hfilter
    | some nativeloader => simpa [hnative] using hfilter

/-- The only linker is the linker of the process. -/
theorem Loads.eq_linker (h : P.Loads modules) (hmem : info ∈ modules) (hname : info.IsLinker) :
    info = P.linker := by
  have hfilter : info ∈ modules.filter fun info => info.IsLinker :=
    List.mem_filter.mpr ⟨hmem, by simpa using hname⟩
  rw [h.linker] at hfilter
  exact List.mem_singleton.mp hfilter

theorem Loads.linker_mem (h : P.Loads modules) : P.linker ∈ modules := by
  have hfilter : P.linker ∈ modules.filter fun info => info.IsLinker := by
    rw [h.linker]
    exact List.mem_singleton_self _
  exact (List.mem_filter.mp hfilter).1

/-- A module with the name of `libnativeloader.so` is loaded where the base is to be. -/
theorem Loads.base_eq (h : P.Loads modules) (hmem : info ∈ modules)
    (hname : info.IsNativeloader abi) : info.dlpiAddr = P.found.libnativeloaderBase := by
  have hfilter : info ∈ modules.filter fun info => info.IsNativeloader abi :=
    List.mem_filter.mpr ⟨hmem, by simpa using hname⟩
  rw [h.nativeloader, Option.mem_toList] at hfilter
  simp [found, Option.mem_def.mp hfilter]

theorem Loads.nativeloader_mem (h : P.Loads modules) {nativeloader : Module}
    (hnative : P.nativeloader = some nativeloader) :
    nativeloader ∈ modules ∧ nativeloader.IsNativeloader abi := by
  have hfilter : nativeloader ∈ modules.filter fun info => info.IsNativeloader abi := by
    simp [h.nativeloader, hnative]
  simpa using List.mem_filter.mp hfilter

/-- The two pointers are as they are to be. -/
def PointersFound (P : NativeProcess abi) (s : Loader) : Prop :=
  s.loaderDlopen = P.found.loaderDlopen ∧ s.loaderDlsym = P.found.loaderDlsym

/-- The base is as it is to be. -/
def BaseFound (P : NativeProcess abi) (s : Loader) : Prop :=
  s.libnativeloaderBase = P.found.libnativeloaderBase

/-- Scanning the linker sets both pointers, whether or not they were set before. -/
theorem Inv.scanSymbols (h : P.Inv s) :
    ∃ s', scanSymbols abi P.linker P.dynstr s (P.linker.symbolsAt P.dynsym) = some s' ∧
      P.PointersFound s' ∧ s'.libnativeloaderBase = s.libnativeloaderBase := by
  have hpos : 0 < (P.linker.symbolsAt P.dynsym).length := by
    refine List.length_pos_of_mem (a := P.dlopenSym) ?_
    exact (List.mem_filter.mp (P.dlopen_once ▸ List.mem_singleton_self _)).1
  have hfound : FoundInside abi P.linker P.dynstr s (P.linker.symbolsAt P.dynsym) := by
    refine ⟨(P.linker.symbolsAt P.dynsym).length - 1, by omega, ?_⟩
    rw [List.take_of_length_le (by omega), lastAddr_of_once _ P.dlopen_once,
      lastAddr_of_once _ P.dlsym_once]
    exact ⟨P.dlopen_ne_null, P.dlsym_ne_null⟩
  rcases scanSymbols_isSome_iff.mpr hfound with ⟨s', hscan⟩
  rcases scanSymbols_eq_some.mp hscan with ⟨k, -, hs, hboth, -⟩
  rw [foldl_visitSymbol] at hs
  -- a set pointer was set to the one address there is, in this scan or before it
  have hsame : ∀ {name : String} {sym : Sym}, (P.linker.symbolsAt P.dynsym).filter
      (fun sym => symName abi P.linker P.dynstr sym = name) = [sym] →
      ∀ x ∈ (P.linker.symbolsAt P.dynsym).take (k + 1),
        symName abi P.linker P.dynstr x = name → x = sym := by
    intro name sym honce x hx hname
    have hfilter : x ∈ (P.linker.symbolsAt P.dynsym).filter
        (fun sym => symName abi P.linker P.dynstr sym = name) :=
      List.mem_filter.mpr ⟨List.mem_of_mem_take hx, by simpa using hname⟩
    rw [honce] at hfilter
    exact List.mem_singleton.mp hfilter
  have hdlopen := lastAddr_of_same s.loaderDlopen (hsame P.dlopen_once)
  have hdlsym := lastAddr_of_same s.loaderDlsym (hsame P.dlsym_once)
  subst hs
  refine ⟨_, hscan, ?_, rfl⟩
  rcases h.pointers with ⟨hnull, hnull'⟩ | ⟨hset, hset'⟩
  · exact ⟨hdlopen.resolve_right fun h0 => hboth.1 (h0.trans hnull),
      hdlsym.resolve_right fun h0 => hboth.2 (h0.trans hnull')⟩
  · exact ⟨hdlopen.elim id fun h0 => h0.trans hset, hdlsym.elim id fun h0 => h0.trans hset'⟩

/-- One call of `callback`: it keeps the invariant and what has been found, a
linker brings the pointers, `libnativeloader.so` the base, and it asks to stop
only when all is found. -/
theorem Inv.callback (hload : P.Loads modules) (hmem : info ∈ modules) (h : P.Inv s) :
    ∃ s' r, callback abi s info = some (s', r) ∧ P.Inv s' ∧
      (info.IsLinker ∨ P.PointersFound s → P.PointersFound s') ∧
      (info.IsNativeloader abi ∨ P.BaseFound s → P.BaseFound s') ∧
      (r ≠ 0 → P.PointersFound s' ∧ P.BaseFound s') := by
  unfold Yahfa.callback
  by_cases hnative : info.dlpiName = libnativeloader abi
  · -- `libnativeloader.so`: its base is taken
    have hbase : info.dlpiAddr = P.found.libnativeloaderBase := hload.base_eq hmem hnative
    have hno : ¬ info.IsLinker := fun hlinker => hlinker.name_ne hnative
    rw [if_pos hnative]
    exact ⟨_, 0, rfl, ⟨h.pointers, Or.inr hbase⟩, fun hp => hp.resolve_left hno, fun _ => hbase,
      fun hne => absurd rfl hne⟩
  · rw [if_neg hnative]
    by_cases hlinker : info.IsLinker
    · -- the linker: its table is scanned
      obtain rfl : info = P.linker := hload.eq_linker hmem hlinker
      rcases h.scanSymbols with ⟨s', hscan, hpointers, hbase⟩
      rw [if_pos hlinker, scanPhdrs_eq P.tables, hscan]
      refine ⟨s', 0, rfl, ⟨Or.inr hpointers, hbase ▸ h.base⟩, fun _ => hpointers, ?_,
        fun hne => absurd rfl hne⟩
      intro hb
      exact hbase.trans (hb.resolve_left hnative)
    · -- another module: all that matters is whether everything has been found
      rw [if_neg hlinker]
      have hp : info.IsLinker ∨ P.PointersFound s → P.PointersFound s :=
        fun hp => hp.resolve_left hlinker
      have hb : info.IsNativeloader abi ∨ P.BaseFound s → P.BaseFound s :=
        fun hb => hb.resolve_left hnative
      split
      · next hall =>
        refine ⟨s, 1, rfl, h, hp, hb, fun _ => ⟨?_, h.base.resolve_left hall.2⟩⟩
        exact h.pointers.resolve_left fun hnull => hall.1.1 hnull.1
      · exact ⟨s, 0, rfl, h, hp, hb, fun hne => absurd rfl hne⟩

/-- One enumeration, of any part of the modules: it keeps the invariant and what
has been found, and finds what the linker and `libnativeloader.so` bring if they
are in that part. Stopping early loses nothing. -/
theorem Inv.initDlopen (hload : P.Loads modules) {part : List Module}
    (hpart : ∀ info ∈ part, info ∈ modules) (h : P.Inv s) :
    ∃ s', initDlopen abi s part = some s' ∧ P.Inv s' ∧
      (P.linker ∈ part ∨ P.PointersFound s → P.PointersFound s') ∧
      ((∃ info ∈ part, info.IsNativeloader abi) ∨ P.BaseFound s → P.BaseFound s') := by
  induction part generalizing s with
  | nil =>
      refine ⟨s, rfl, h, ?_, ?_⟩
      · rintro (hnone | hp)
        · cases hnone
        · exact hp
      · rintro (⟨_, hnone, -⟩ | hb)
        · cases hnone
        · exact hb
  | cons info rest ih =>
      rcases h.callback hload (hpart info List.mem_cons_self) with
        ⟨s₁, r, hcallback, hinv, hpointers, hbase, hstop⟩
      unfold Yahfa.initDlopen dlIteratePhdr
      rw [hcallback, Option.bind_some]
      by_cases hr : r ≠ 0
      · -- the callback stops the enumeration, so everything has been found
        rcases hstop hr with ⟨hp, hb⟩
        exact ⟨s₁, by simp [hr], hinv, fun _ => hp, fun _ => hb⟩
      · rcases ih (fun x hx => hpart x (List.mem_cons_of_mem _ hx)) hinv with
          ⟨s', hrest, hinv', hpointers', hbase'⟩
        refine ⟨s', by simpa [hr, Yahfa.initDlopen] using hrest, hinv', ?_, ?_⟩
        · rintro (hlinker | hp)
          · rcases List.mem_cons.mp hlinker with rfl | hlinker
            · exact hpointers' (Or.inr (hpointers (Or.inl P.linker_name)))
            · exact hpointers' (Or.inl hlinker)
          · exact hpointers' (Or.inr (hpointers (Or.inr hp)))
        · rintro (⟨x, hx, hnative⟩ | hb)
          · rcases List.mem_cons.mp hx with rfl | hx
            · exact hbase' (Or.inr (hbase (Or.inl hnative)))
            · exact hbase' (Or.inl ⟨x, hx, hnative⟩)
          · exact hbase' (Or.inr (hbase (Or.inr hb)))

/-- One enumeration of all the modules finds everything. -/
theorem Inv.initDlopen_eq (hload : P.Loads modules) (h : P.Inv s) :
    Yahfa.initDlopen abi s modules = some P.found := by
  rcases h.initDlopen hload (fun _ hx => hx) with ⟨s', hrun, hinv, hpointers, hbase⟩
  rcases hpointers (Or.inl hload.linker_mem) with ⟨hdlopen, hdlsym⟩
  have hb : s'.libnativeloaderBase = P.found.libnativeloaderBase := by
    cases hnative : P.nativeloader with
    | none =>
        -- without the library the base is to stay 0
        have hzero : P.found.libnativeloaderBase = 0 := by simp [found, hnative]
        exact hinv.base.elim (fun h0 => h0.trans hzero.symm) id
    | some nativeloader => exact hbase (Or.inl ⟨nativeloader, hload.nativeloader_mem hnative⟩)
  obtain rfl : s' = P.found := by
    cases s'
    simp only at hdlopen hdlsym hb
    subst hdlopen hdlsym hb
    rfl
  exact hrun

variable (P) in
theorem inv_initial : P.Inv .initial := ⟨Or.inl ⟨rfl, rfl⟩, Or.inl rfl⟩

variable (P) in
theorem inv_found : P.Inv P.found := ⟨Or.inr ⟨rfl, rfl⟩, Or.inr rfl⟩

end NativeProcess

/-- The order in which the modules are enumerated does not matter, nor how often
they are, nor whether the order changes from one time to the next. -/
theorem initAll_eq (P : NativeProcess abi) {modules : List Module} (h : P.Loads modules)
    (first : List Module) (more : List (List Module)) (hfirst : first.Perm modules)
    (hmore : ∀ again ∈ more, again.Perm modules) :
    initAll abi .initial (first :: more) = some P.found := by
  have hagain : initAll abi P.found more = some P.found := by
    induction more with
    | nil => rfl
    | cons again more ih =>
        have hstep := P.inv_found.initDlopen_eq (h.perm (hmore again List.mem_cons_self))
        unfold initAll
        rw [List.foldlM_cons, hstep]
        exact ih fun x hx => hmore x (List.mem_cons_of_mem _ hx)
  have hstep := P.inv_initial.initDlopen_eq (h.perm hfirst)
  unfold initAll
  rw [List.foldlM_cons, hstep]
  exact hagain

/-- A module of which only name and load address matter. -/
def plainModule (name : String) (addr : Nat) : Module :=
  ⟨name, addr, [], fun _ => [], fun _ => [], fun _ => ""⟩

/-- A process with the linker of `linkerWith` and `libnativeloader.so`. -/
def exampleProcess : NativeProcess .aarch64 where
  linker := linkerWith ["__loader_dlsym", "malloc", "__loader_dlopen"]
  dynsym := 0x7300
  dynstr := 0x7200
  dlopenSym := ⟨2, 0x1020⟩
  dlsymSym := ⟨0, 0x1000⟩
  nativeloader := some (plainModule "/apex/com.android.art/lib64/libnativeloader.so" 0x9000)
  linker_name := by decide +kernel
  tables := by decide +kernel
  dlopen_once := by decide +kernel
  dlopen_ne_null := by decide +kernel
  dlsym_once := by decide +kernel
  dlsym_ne_null := by decide +kernel

/-- Three modules, enumerated twice in different orders. -/
theorem initAll_eq_twice :
    let a := plainModule "/system/lib64/libc.so" 0x5000
    let b := plainModule "/apex/com.android.art/lib64/libnativeloader.so" 0x9000
    let c := linkerWith ["__loader_dlsym", "malloc", "__loader_dlopen"]
    initAll .aarch64 .initial [[a, b, c], [c, a, b]] = some ⟨0x8020, 0x8000, 0x9000⟩ := by
  intro a b c
  have hlinker : c.IsLinker ∧ ¬ a.IsLinker ∧ ¬ b.IsLinker := by decide +kernel
  have hnative : b.IsNativeloader .aarch64 ∧ ¬ a.IsNativeloader .aarch64 ∧
      ¬ c.IsNativeloader .aarch64 := by decide +kernel
  have hload : exampleProcess.Loads [a, b, c] := by
    constructor
    · simp [hlinker, exampleProcess, c]
    · simp [hnative, exampleProcess, b]
  exact initAll_eq exampleProcess hload [a, b, c] [[c, a, b]] (List.Perm.refl _)
    (by
      intro again hagain
      obtain rfl : again = [c, a, b] := by simpa using hagain
      exact (List.perm_append_singleton c [a, b]).symm)

end Runs

end Yahfa
