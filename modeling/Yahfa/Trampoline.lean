import Yahfa.Common

/-!
# `trampoline.c`: the trampoline pool

`genTrampoline` lays a patched copy of a template down at
`currentTrampolineOff`, taking a new block from `mmap` when the current one is
full. What `mmap` answers is an input: `mmap k` is the outcome of the `k`-th
call, `none` for `MAP_FAILED`.

The stores a call makes are part of its result, so that one can ask where it
writes; carrying them out is `applyStores`.
-/

namespace Yahfa

open Bytes

/-! ## Templates -/

/-- `sizeof(trampoline)`. -/
def sizeofTrampoline : Abi → Nat
  | .i386 => 13
  | .x86_64 => 18
  | .arm => 16
  | .aarch64 => 24

/-- `trampolineForBackup`. -/
def trampolineForBackup : Abi → List UInt8
  | .i386 =>
      [0xb8, 0x78, 0x56, 0x34, 0x12,
       0x68, 0x78, 0x56, 0x34, 0x12,
       0xc3]
  | .x86_64 =>
      [0x48, 0xbf, 0x78, 0x56, 0x34, 0x12, 0x78, 0x56, 0x34, 0x12,
       0x57,
       0x48, 0xbf, 0x78, 0x56, 0x34, 0x12, 0x78, 0x56, 0x34, 0x12,
       0xc3]
  | .arm =>
      [0x0c, 0x00, 0x9f, 0xe5,
       0x01, 0x00, 0x2d, 0xe9,
       0x00, 0x00, 0x9f, 0xe5,
       0x00, 0x80, 0xbd, 0xe8,
       0x78, 0x56, 0x34, 0x12,
       0x78, 0x56, 0x34, 0x12]
  | .aarch64 =>
      [0x60, 0x00, 0x00, 0x58,
       0x90, 0x00, 0x00, 0x58,
       0x00, 0x02, 0x1f, 0xd6,
       0x78, 0x56, 0x34, 0x12,
       0x89, 0x67, 0x45, 0x23,
       0x78, 0x56, 0x34, 0x12,
       0x89, 0x67, 0x45, 0x23]

/-- `sizeof(trampolineForBackup)`. -/
def sizeofTrampolineForBackup (abi : Abi) : Nat := (trampolineForBackup abi).length

/-- The contents of the array `trampoline`: `setupTrampoline` patches its
bytes, its size is fixed. -/
structure Template (abi : Abi) where
  bytes : List UInt8
  length_eq : bytes.length = sizeofTrampoline abi

namespace Template

variable {abi : Abi}

/-- `trampoline[i]`. -/
def get (t : Template abi) (i : Nat) : UInt8 := t.bytes.getD i 0

/-- `trampoline[i] = b`. -/
def set (t : Template abi) (i : Nat) (b : UInt8) : Template abi where
  bytes := t.bytes.set i b
  length_eq := by rw [List.length_set, t.length_eq]

end Template

/-- `trampoline` as the library is loaded. -/
def trampoline : (abi : Abi) → Template abi
  | .i386 =>
      ⟨[0x00, 0x00, 0x00, 0x00,
        0xb8, 0x78, 0x56, 0x34, 0x12,
        0xff, 0x70, 0x20,
        0xc3], rfl⟩
  | .x86_64 =>
      ⟨[0x00, 0x00, 0x00, 0x00,
        0x48, 0xbf, 0x78, 0x56, 0x34, 0x12, 0x78, 0x56, 0x34, 0x12,
        0xff, 0x77, 0x20,
        0xc3], rfl⟩
  | .arm =>
      ⟨[0x00, 0x00, 0x00, 0x00,
        0x00, 0x00, 0x9f, 0xe5,
        0x20, 0xf0, 0x90, 0xe5,
        0x78, 0x56, 0x34, 0x12], rfl⟩
  | .aarch64 =>
      ⟨[0x00, 0x00, 0x00, 0x00,
        0x60, 0x00, 0x00, 0x58,
        0x10, 0x00, 0x40, 0xf8,
        0x00, 0x02, 0x1f, 0xd6,
        0x78, 0x56, 0x34, 0x12,
        0x89, 0x67, 0x45, 0x23], rfl⟩

/-- `setupTrampoline`. -/
def setupTrampoline : (abi : Abi) → Template abi → UInt8 → Template abi
  | .i386, t, offset => t.set 11 offset
  | .x86_64, t, offset => t.set 16 offset
  | .arm, t, offset => t.set 8 offset
  | .aarch64, t, offset =>
      let t := t.set 9 (t.get 9 ||| offset <<< 4)
      t.set 10 (t.get 10 ||| offset >>> 4)

/-! ## The pool -/

/-- `TRAMPOLINE_SPACE_SIZE`. -/
def trampolineSpaceSize : Nat := 4096

/-- The outcome of each `mmap` call in turn. -/
abbrev Mmap := Nat → Option Nat

/-- The static pointers of the pool, and how often `mmap` has been called. -/
structure Pool where
  currentTrampolineOff : Nat
  trampolineSpaceEnd : Nat
  mmaps : Nat
deriving DecidableEq, Repr

/-- The pool as the library is loaded. -/
def Pool.initial : Pool := ⟨NULL, NULL, 0⟩

/-- `allocTrampolineSpace`. -/
def allocTrampolineSpace (mmap : Mmap) (p : Pool) : Nat × Pool :=
  match mmap p.mmaps with
  | none => (NULL, { p with mmaps := p.mmaps + 1 })
  | some buf => (buf, { p with mmaps := p.mmaps + 1 })

/-- The size `genTrampoline` reserves, before rounding. -/
def trampolineSize (abi : Abi) (entrypoint : Nat) : Nat :=
  if entrypoint ≠ NULL then sizeofTrampolineForBackup abi else sizeofTrampoline abi

/-- A trampoline that has been laid down: where it starts and the two pointers
it was generated for. -/
structure Trampoline where
  base : Nat
  toMethod : Nat
  entrypoint : Nat
deriving DecidableEq, Repr

namespace Trampoline

/-- All bytes of the trampoline, the `code_size_` header included. -/
def span (abi : Abi) (t : Trampoline) : Span := ⟨t.base, trampolineSize abi t.entrypoint⟩

/-- The address `genTrampoline` hands out: behind the header, if there is one. -/
def addr (t : Trampoline) : Nat := if t.entrypoint = NULL then t.base + 4 else t.base

end Trampoline

/-- What a call of `genTrampoline` does. -/
structure GenResult where
  ret : Nat
  stores : List Store
  pool : Pool
  made : Option Trampoline

/-- The `memcpy` of a pointer. -/
def pointerStore (abi : Abi) (addr p : Nat) : Store := ⟨addr, leBytes (pointerSize abi) p⟩

/-- The stores that replace the placeholders by the actual pointers. -/
def patchStores (abi : Abi) (targetAddr toMethod entrypoint : Nat) : List Store :=
  match abi with
  | .i386 =>
      if entrypoint ≠ NULL then
        [pointerStore abi (targetAddr + 1) toMethod, pointerStore abi (targetAddr + 6) entrypoint]
      else [pointerStore abi (targetAddr + 5) toMethod]
  | .x86_64 =>
      if entrypoint ≠ NULL then
        [pointerStore abi (targetAddr + 2) entrypoint, pointerStore abi (targetAddr + 13) toMethod]
      else [pointerStore abi (targetAddr + 6) toMethod]
  | .arm =>
      if entrypoint ≠ NULL then
        [pointerStore abi (targetAddr + 20) entrypoint, pointerStore abi (targetAddr + 16) toMethod]
      else [pointerStore abi (targetAddr + 12) toMethod]
  | .aarch64 =>
      if entrypoint ≠ NULL then
        [pointerStore abi (targetAddr + 20) entrypoint, pointerStore abi (targetAddr + 12) toMethod]
      else [pointerStore abi (targetAddr + 16) toMethod]

/-- The second half of `genTrampoline`: copy the template to
`currentTrampolineOff`, patch it and move the offset on. -/
def layTrampoline (abi : Abi) (template : Template abi) (p : Pool) (toMethod entrypoint : Nat) :
    GenResult :=
  let targetAddr := p.currentTrampolineOff
  let copy : Store :=
    if entrypoint ≠ NULL then ⟨targetAddr, trampolineForBackup abi⟩
    else ⟨targetAddr, template.bytes⟩
  { ret := if entrypoint = NULL then targetAddr + 4 else targetAddr
    stores := copy :: patchStores abi targetAddr toMethod entrypoint
    pool := { p with
      currentTrampolineOff :=
        p.currentTrampolineOff + roundUpToPtrSize abi (trampolineSize abi entrypoint) }
    made := some ⟨targetAddr, toMethod, entrypoint⟩ }

/-- `genTrampoline`. -/
def genTrampoline (abi : Abi) (template : Template abi) (mmap : Mmap) (p : Pool)
    (toMethod entrypoint : Nat) : GenResult :=
  -- check available space for new trampoline
  if p.currentTrampolineOff + trampolineSize abi entrypoint > p.trampolineSpaceEnd then
    let (buf, p) := allocTrampolineSpace mmap p
    let p := { p with currentTrampolineOff := buf }
    if buf = NULL then
      -- only one of the two static pointers has changed here
      { ret := NULL, stores := [], pool := p, made := none }
    else
      layTrampoline abi template { p with trampolineSpaceEnd := buf + trampolineSpaceSize }
        toMethod entrypoint
  else
    layTrampoline abi template p toMethod entrypoint

/-! ## What one call can do -/

section Spec

variable {abi : Abi} {template : Template abi} {p : Pool} {toMethod entrypoint : Nat}

/-- The block a successful `mmap` returned. -/
def blockSpan (b : Nat) : Span := ⟨b, trampolineSpaceSize⟩

/-- The three ways a call can go: there is room, `mmap` fails, or `mmap`
returns a block. -/
theorem genTrampoline_cases (template : Template abi) (mmap : Mmap) (p : Pool)
    (toMethod entrypoint : Nat) :
    (p.currentTrampolineOff + trampolineSize abi entrypoint ≤ p.trampolineSpaceEnd ∧
      genTrampoline abi template mmap p toMethod entrypoint =
        layTrampoline abi template p toMethod entrypoint) ∨
    (p.trampolineSpaceEnd < p.currentTrampolineOff + trampolineSize abi entrypoint ∧
      (∀ b, mmap p.mmaps = some b → b = NULL) ∧
      genTrampoline abi template mmap p toMethod entrypoint =
        { ret := NULL, stores := [], made := none,
          pool := ⟨NULL, p.trampolineSpaceEnd, p.mmaps + 1⟩ }) ∨
    (∃ b, p.trampolineSpaceEnd < p.currentTrampolineOff + trampolineSize abi entrypoint ∧
      mmap p.mmaps = some b ∧ b ≠ NULL ∧
      genTrampoline abi template mmap p toMethod entrypoint =
        layTrampoline abi template ⟨b, b + trampolineSpaceSize, p.mmaps + 1⟩
          toMethod entrypoint) := by
  by_cases hroom : p.trampolineSpaceEnd < p.currentTrampolineOff + trampolineSize abi entrypoint
  · -- no room: everything depends on `mmap`
    right
    cases hm : mmap p.mmaps with
    | none =>
        exact .inl ⟨hroom, by simp, by simp [genTrampoline, hroom, allocTrampolineSpace, hm]⟩
    | some b =>
        by_cases hb : b = NULL
        · exact .inl ⟨hroom, by simp [hb],
            by simp [genTrampoline, hroom, allocTrampolineSpace, hm, hb]⟩
        · exact .inr ⟨b, hroom, rfl, hb,
            by simp [genTrampoline, hroom, allocTrampolineSpace, hm, hb]⟩
  · exact .inl ⟨by omega, by simp [genTrampoline, hroom]⟩

@[simp] theorem layTrampoline_made :
    (layTrampoline abi template p toMethod entrypoint).made =
      some ⟨p.currentTrampolineOff, toMethod, entrypoint⟩ := rfl

@[simp] theorem layTrampoline_ret :
    (layTrampoline abi template p toMethod entrypoint).ret =
      (Trampoline.mk p.currentTrampolineOff toMethod entrypoint).addr := rfl

@[simp] theorem layTrampoline_pool :
    (layTrampoline abi template p toMethod entrypoint).pool =
      ⟨p.currentTrampolineOff + roundUpToPtrSize abi (trampolineSize abi entrypoint),
        p.trampolineSpaceEnd, p.mmaps⟩ := rfl

theorem trampolineSize_pos (abi : Abi) (entrypoint : Nat) : 0 < trampolineSize abi entrypoint := by
  unfold trampolineSize
  split <;> cases abi <;> decide

theorem trampolineSize_le (abi : Abi) (entrypoint : Nat) : trampolineSize abi entrypoint ≤ 28 := by
  unfold trampolineSize
  split <;> cases abi <;> decide

/-- Rounding up loses nothing and lands on a multiple of the pointer size. -/
theorem roundUp_trampolineSize (abi : Abi) (entrypoint : Nat) :
    trampolineSize abi entrypoint ≤ roundUpToPtrSize abi (trampolineSize abi entrypoint) ∧
      roundUpToPtrSize abi (trampolineSize abi entrypoint) <
        trampolineSize abi entrypoint + pointerSize abi ∧
      pointerSize abi ∣ roundUpToPtrSize abi (trampolineSize abi entrypoint) := by
  unfold trampolineSize
  split <;> cases abi <;> decide

theorem pointerSize_dvd_spaceSize : pointerSize abi ∣ trampolineSpaceSize := by
  cases abi <;> decide

/-- Every store of `layTrampoline` lies in the trampoline's own span. -/
theorem layTrampoline_stores_within {s : Store}
    (hs : s ∈ (layTrampoline abi template p toMethod entrypoint).stores) :
    s.span.Within ⟨p.currentTrampolineOff, trampolineSize abi entrypoint⟩ := by
  have htemplate := template.length_eq
  by_cases he : entrypoint = NULL
  · subst he
    cases abi <;>
      simp [layTrampoline, patchStores] at hs <;>
      obtain rfl | rfl := hs <;>
      simp [Span.Within, Store.span, pointerStore, trampolineSize, sizeofTrampoline, pointerSize,
        htemplate]
  · cases abi <;>
      simp [layTrampoline, patchStores, he] at hs <;>
      obtain rfl | rfl | rfl := hs <;>
      simp [Span.Within, Store.span, pointerStore, trampolineSize, sizeofTrampolineForBackup,
        trampolineForBackup, pointerSize, he]

/-- The first store of `layTrampoline` fills the whole span. -/
theorem layTrampoline_stores_head (template : Template abi) (p : Pool)
    (toMethod entrypoint : Nat) :
    ∃ s rest, (layTrampoline abi template p toMethod entrypoint).stores = s :: rest ∧
      s.span = ⟨p.currentTrampolineOff, trampolineSize abi entrypoint⟩ := by
  have htemplate := template.length_eq
  by_cases he : entrypoint = NULL <;>
    exact ⟨_, _, rfl, by simp [Store.span, he, trampolineSize, sizeofTrampolineForBackup, htemplate]⟩

end Spec

end Yahfa
