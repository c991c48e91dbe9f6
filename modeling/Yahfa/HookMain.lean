import Yahfa.PoolSafety

/-!
# `hook_main.c`: installing a hook

`init` sets the field offsets of `ArtMethod` for an SDK level;
`doBackupAndHook` redirects the target to the hook and the backup to the
original code of the target. The statics of the file are the record `Statics`;
the memory, the pool of `trampoline.c` and the trampolines made so far are the
`World` a call acts on. A store through the null pointer faults: there is no
state after it (`none`).
-/

namespace Yahfa

open Bytes

variable {abi : Abi}

/-! ## The statics and `init` -/

/-- The statics of `hook_main.c`, with the template `setupTrampoline` patches. -/
structure Statics (abi : Abi) where
  sdkVersion : Int
  offsetEntryPointFromInterpreter : Nat
  offsetEntryPointFromQuickCompiledCode : Nat
  offsetArtMehodInObject : Nat
  offsetAccessFlags : Nat
  kAccNative : BitVec 32
  kAccCompileDontBother : BitVec 32
  kAccFastInterpreterToInterpreterInvoke : BitVec 32
  kAccPreCompiled : BitVec 32
  trampoline : Template abi

/-- The statics as the library is loaded. -/
def Statics.initial (abi : Abi) : Statics abi where
  sdkVersion := 0
  offsetEntryPointFromInterpreter := 0
  offsetEntryPointFromQuickCompiledCode := 0
  offsetArtMehodInObject := 0
  offsetAccessFlags := 0
  kAccNative := 0x0100
  kAccCompileDontBother := 0x01000000
  kAccFastInterpreterToInterpreterInvoke := 0x40000000
  kAccPreCompiled := 0x00200000
  trampoline := Yahfa.trampoline abi

/-- The `case` of Q and P. -/
def initCaseQ (sdkVersion : Int) (g : Statics abi) : Statics abi :=
  { g with
    kAccCompileDontBother := 0x02000000
    offsetArtMehodInObject := 0
    offsetAccessFlags := 4
    offsetEntryPointFromQuickCompiledCode :=
      if sdkVersion ≥ androidApiS then
        roundUpToPtrSize abi (4 * 3 + 2 * 2) + pointerSize abi
      else
        roundUpToPtrSize abi (4 * 4 + 2 * 2) + pointerSize abi }

/-- The `case` of R falls through to Q; the field id it looks up is a matter of JNI. -/
def initCaseR (sdkVersion : Int) (g : Statics abi) : Statics abi := initCaseQ sdkVersion g

/-- The `case` of T, S_L and S falls through to R. -/
def initCaseS (sdkVersion : Int) (g : Statics abi) : Statics abi :=
  initCaseR sdkVersion { g with kAccPreCompiled := 0x00800000 }

/-- The `case` of O. -/
def initCaseO (g : Statics abi) : Statics abi :=
  { g with
    offsetArtMehodInObject := 0
    offsetAccessFlags := 4
    offsetEntryPointFromQuickCompiledCode :=
      roundUpToPtrSize abi (4 * 4 + 2 * 2) + pointerSize abi * 2 }

/-- The `case` of O_MR1 falls through to O. -/
def initCaseOMr1 (g : Statics abi) : Statics abi :=
  initCaseO { g with kAccCompileDontBother := 0x02000000 }

/-- The `case` of N_MR1 and N. -/
def initCaseN (g : Statics abi) : Statics abi :=
  { g with
    offsetArtMehodInObject := 0
    offsetAccessFlags := 4
    offsetEntryPointFromQuickCompiledCode :=
      roundUpToPtrSize abi (4 * 4 + 2 * 2) + pointerSize abi * 3 }

/-- The `case` of M. -/
def initCaseM (g : Statics abi) : Statics abi :=
  let g := { g with
    offsetArtMehodInObject := 0
    offsetEntryPointFromInterpreter := roundUpToPtrSize abi (4 * 7) }
  { g with
    offsetEntryPointFromQuickCompiledCode :=
      g.offsetEntryPointFromInterpreter + pointerSize abi * 2 }

/-- The `case` of L_MR1. -/
def initCaseLMr1 (g : Statics abi) : Statics abi :=
  let g := { g with offsetArtMehodInObject := 4 * 2 }
  let g := { g with
    offsetEntryPointFromInterpreter := roundUpToPtrSize abi (g.offsetArtMehodInObject + 4 * 7) }
  { g with
    offsetEntryPointFromQuickCompiledCode :=
      g.offsetEntryPointFromInterpreter + pointerSize abi * 2 }

/-- The `case` of L. -/
def initCaseL (g : Statics abi) : Statics abi :=
  let g := { g with offsetArtMehodInObject := 4 * 2 }
  let g := { g with offsetEntryPointFromInterpreter := g.offsetArtMehodInObject + 4 * 4 }
  { g with offsetEntryPointFromQuickCompiledCode := g.offsetEntryPointFromInterpreter + 8 * 2 }

/-- The `switch` of `init`; the `default` branch only logs. -/
def initSwitch (sdkVersion : Int) (g : Statics abi) : Statics abi :=
  if sdkVersion = androidApiT ∨ sdkVersion = androidApiSL ∨ sdkVersion = androidApiS then
    initCaseS sdkVersion g
  else if sdkVersion = androidApiR then initCaseR sdkVersion g
  else if sdkVersion = androidApiQ ∨ sdkVersion = androidApiP then initCaseQ sdkVersion g
  else if sdkVersion = androidApiOMr1 then initCaseOMr1 g
  else if sdkVersion = androidApiO then initCaseO g
  else if sdkVersion = androidApiNMr1 ∨ sdkVersion = androidApiN then initCaseN g
  else if sdkVersion = androidApiM then initCaseM g
  else if sdkVersion = androidApiLMr1 then initCaseLMr1 g
  else if sdkVersion = androidApiL then initCaseL g
  else g

/-- `Java_com_android_flinger_yafya_YafyaMain_init`. -/
def init (g : Statics abi) (sdkVersion : Int) : Statics abi :=
  let g := initSwitch sdkVersion { g with sdkVersion := sdkVersion }
  { g with
    trampoline :=
      setupTrampoline abi g.trampoline (UInt8.ofNat g.offsetEntryPointFromQuickCompiledCode) }

/-- The statics after the one `init` of the static initializer of `YafyaMain`. -/
def initialized (abi : Abi) (sdkVersion : Int) : Statics abi := init (.initial abi) sdkVersion

/-- The levels `init` has a `case` for. -/
def handledLevels : List Int :=
  [androidApiT, androidApiSL, androidApiS, androidApiR, androidApiQ, androidApiP, androidApiOMr1,
    androidApiO, androidApiNMr1, androidApiN, androidApiM, androidApiLMr1, androidApiL]

/-! ## The fields of an `ArtMethod` -/

namespace Statics

variable (g : Statics abi) (mem : Memory) (method : Nat)

/-- Where the quick entry point is. -/
def quickSpan : Span := ⟨method + g.offsetEntryPointFromQuickCompiledCode, pointerSize abi⟩

/-- Where the interpreter entry point is. -/
def interpreterSpan : Span := ⟨method + g.offsetEntryPointFromInterpreter, pointerSize abi⟩

/-- Where the access flags are. -/
def flagsSpan : Span := ⟨method + g.offsetAccessFlags, 4⟩

/-- The part of an `ArtMethod` up to the end of its quick entry point. -/
def methodSpan : Span :=
  ⟨method, g.offsetEntryPointFromQuickCompiledCode + pointerSize abi⟩

/-- The quick entry point of a method. -/
def entryPoint : Nat := readAddr abi mem (method + g.offsetEntryPointFromQuickCompiledCode)

/-- The interpreter entry point of a method. -/
def interpreterEntryPoint : Nat := readAddr abi mem (method + g.offsetEntryPointFromInterpreter)

/-- Write the quick entry point of a method. -/
def setEntryPoint (entrypoint : Nat) : Memory :=
  writeAddr abi mem (method + g.offsetEntryPointFromQuickCompiledCode) entrypoint

/-- Write the interpreter entry point of a method. -/
def setInterpreterEntryPoint (entrypoint : Nat) : Memory :=
  writeAddr abi mem (method + g.offsetEntryPointFromInterpreter) entrypoint

/-- `getFlags`. -/
def getFlags : BitVec 32 := read32 mem (method + g.offsetAccessFlags)

/-- `setFlags`. -/
def setFlags (accessFlags : BitVec 32) : Memory :=
  write32 mem (method + g.offsetAccessFlags) accessFlags

/-- What `setNonCompilable` makes of the access flags. -/
def nonCompilable (accessFlags : BitVec 32) : BitVec 32 :=
  let accessFlags := accessFlags ||| g.kAccCompileDontBother
  if g.sdkVersion ≥ androidApiR then accessFlags &&& ~~~g.kAccPreCompiled else accessFlags

/-- What `replaceMethod` makes of the access flags. -/
def replaced (accessFlags : BitVec 32) : BitVec 32 :=
  let accessFlags :=
    if g.sdkVersion ≥ androidApiQ then
      accessFlags &&& ~~~g.kAccFastInterpreterToInterpreterInvoke
    else accessFlags
  -- kAccNative is not set on R and later
  if g.sdkVersion ≤ androidApiQ then accessFlags ||| g.kAccNative else accessFlags

end Statics

/-! ## Hooking -/

/-- `setNonCompilable`. -/
def setNonCompilable (g : Statics abi) (mem : Memory) (method : Nat) : Memory :=
  if g.sdkVersion < androidApiN then mem
  else g.setFlags mem method (g.nonCompilable (g.getFlags mem method))

/-- What the library acts on. -/
structure World where
  mem : Memory
  pool : Pool
  made : List Trampoline

/-- The library just loaded, over any memory. -/
def World.initial (mem : Memory) : World := ⟨mem, .initial, []⟩

/-- Carry out stores; a store through the null pointer faults. -/
def storeAll (mem : Memory) (ss : List Store) : Option Memory :=
  if ∃ s ∈ ss, s.addr = NULL then none else some (applyStores mem ss)

/-- `replaceMethod` writes the new entry point, and copies the interpreter entry
point on the levels that have one. -/
def redirectEntryPoints (g : Statics abi) (mem : Memory)
    (fromMethod toMethod newEntrypoint : Nat) : Memory :=
  let mem := g.setEntryPoint mem fromMethod newEntrypoint
  if g.offsetEntryPointFromInterpreter ≠ 0 then
    g.setInterpreterEntryPoint mem fromMethod (g.interpreterEntryPoint mem toMethod)
  else mem

/-- The writes of `replaceMethod` to `fromMethod` once it has the new entry point. -/
def redirect (g : Statics abi) (mem : Memory) (fromMethod toMethod newEntrypoint : Nat) : Memory :=
  let mem := redirectEntryPoints g mem fromMethod toMethod newEntrypoint
  -- set the target method to native so that Android O wouldn't invoke it with interpreter
  if g.sdkVersion ≥ androidApiO then
    g.setFlags mem fromMethod (g.replaced (g.getFlags mem fromMethod))
  else mem

/-- The second argument `replaceMethod` passes to `genTrampoline`. -/
def hardcodedEntrypoint (g : Statics abi) (mem : Memory) (toMethod : Nat) (isBackup : Bool) : Nat :=
  if isBackup then g.entryPoint mem toMethod else NULL

/-- `replaceMethod`. -/
def replaceMethod (g : Statics abi) (mmap : Mmap) (w : World) (fromMethod toMethod : Nat)
    (isBackup : Bool) : Option (Nat × World) :=
  let r := genTrampoline abi g.trampoline mmap w.pool toMethod
    (hardcodedEntrypoint g w.mem toMethod isBackup)
  (storeAll w.mem r.stores).map fun mem =>
    let made := r.made.toList ++ w.made
    if r.ret ≠ NULL then (0, ⟨redirect g mem fromMethod toMethod r.ret, r.pool, made⟩)
    else (1, ⟨mem, r.pool, made⟩)

/-- The first step of `doBackupAndHook`. -/
def setBothNonCompilable (g : Statics abi) (mem : Memory) (targetMethod backupMethod : Nat) :
    Memory :=
  if g.sdkVersion ≥ androidApiN then
    let mem := setNonCompilable g mem targetMethod
    if backupMethod ≠ NULL then setNonCompilable g mem backupMethod else mem
  else mem

/-- `doBackupAndHook`. -/
def doBackupAndHook (g : Statics abi) (mmap : Mmap) (w : World)
    (targetMethod hookMethod backupMethod : Nat) : Option (Nat × World) :=
  let w := { w with mem := setBothNonCompilable g w.mem targetMethod backupMethod }
  let backedUp :=
    if backupMethod ≠ NULL then replaceMethod g mmap w backupMethod targetMethod true
    else some (0, w)
  backedUp.bind fun (res, w) =>
    (replaceMethod g mmap w targetMethod hookMethod false).map fun (res', w) => (res + res', w)

end Yahfa
