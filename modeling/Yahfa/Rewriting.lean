import Yahfa.Mystrstr

/-!
# `hook_main.c`: hooks that rewrite a string

`new_open` and `new_strstr` search a string of the caller, and if it contains one of
some needles they copy another one over it before they call on. The copy stays in the
string exactly when it is not longer. For `new_strstr` that is always so, as its
replacement is shorter than the needle; `new_open` also replaces paths that are
shorter than its replacement.
-/

namespace Yahfa

open Bytes

/-! ## The functions -/

/-- A string constant of the library. -/
structure Literal (mem : Memory) (value : String) where
  string : CString mem
  text_eq : string.text = ofString value

/-- The constants the two functions use. -/
structure Literals (mem : Memory) where
  magisk : Literal mem "magisk"
  bootCount : Literal mem "boot_count"
  su : Literal mem "/su"
  tmp : Literal mem "/data/data/local/tmp"
  libfingerCore : Literal mem "libfingerCore"
  libcttt : Literal mem "libcttt.so"

/-- How a hook calls the function it replaces: what it has stored before, the memory
and the arguments of the call, and what that returns. -/
structure Forwarded (α ρ : Type) where
  stores : List Store
  mem : Memory
  args : α
  rtn : ρ

/-- The arguments of `open`. -/
structure OpenArgs where
  pathname : Nat
  flags : Int
  mode : Nat
deriving DecidableEq, Repr

/-- The arguments of `strstr`. -/
structure StrstrArgs where
  str1 : Nat
  str2 : Nat
deriving DecidableEq, Repr

/-- Call `old` after some stores. -/
def forward {α ρ : Type} (old : Memory → α → ρ) (mem : Memory) (args : α) (stores : List Store) :
    Forwarded α ρ :=
  let mem' := applyStores mem stores
  ⟨stores, mem', args, old mem' args⟩

section Functions

variable (abi : Abi) {mem : Memory}

/-- `mystrstr(str, needle) || …`, for one needle after the other. -/
def mystrstrAny (fuel str : Nat) : List (CString mem) → Option Bool
  | [] => some false
  | needle :: needles =>
      match mystrstr abi mem fuel str needle.addr with
      | none => none
      | some (p, _) => if p ≠ NULL then some true else mystrstrAny fuel str needles

/-- `if (mystrstr(str, needle) || …) strcpy(str, replacement);`. -/
def rewriteString (fuel str : Nat) (needles : List (CString mem)) (replacement : CString mem) :
    Option (List Store) :=
  (mystrstrAny abi fuel str needles).map fun found =>
    if found then [CString.strcpy str replacement] else []

variable (lits : Literals mem)

/-- `new_open`. -/
def newOpen (fuel : Nat) (oldOpen : Memory → OpenArgs → Int) (args : OpenArgs) :
    Option (Forwarded OpenArgs Int) :=
  if args.pathname ≠ NULL then
    (rewriteString abi fuel args.pathname [lits.magisk.string, lits.bootCount.string, lits.su.string]
      lits.tmp.string).map (forward oldOpen mem args)
  else some (forward oldOpen mem args [])

/-- `new_strstr`. -/
def newStrstr (fuel : Nat) (oldStrstr : Memory → StrstrArgs → Nat) (args : StrstrArgs) :
    Option (Forwarded StrstrArgs Nat) :=
  (rewriteString abi fuel args.str2 [lits.libfingerCore.string] lits.libcttt.string).map
    (forward oldStrstr mem args)

end Functions

/-! ## What a rewriting does -/

section Rewriting

variable {abi : Abi} {mem : Memory}

/-- One of the needles occurs in the string. -/
def ContainsAny (s : CString mem) (needles : List String) : Prop :=
  ∃ needle ∈ needles, ofString needle <:+: s.text

/-- There is a string with the text at the address. -/
def Sees (mem : Memory) (addr : Nat) (text : List UInt8) : Prop :=
  ∃ s : CString mem, s.addr = addr ∧ s.text = text

/-- A hook calls on with its own arguments. Before, it writes into the string only; the
call sees the replacement if the string contains a needle, and else memory as it was. -/
structure RewritesInside {α ρ : Type} (s : CString mem) (needles : List String)
    (replacement : String) (old : Memory → α → ρ) (args : α) (r : Forwarded α ρ) : Prop where
  args_eq : r.args = args
  rtn_eq : r.rtn = old r.mem r.args
  inside : ∀ st ∈ r.stores, st.span.Within s.span
  sees : ContainsAny s needles → Sees r.mem s.addr (ofString replacement)
  unchanged : ¬ ContainsAny s needles → r.stores = [] ∧ r.mem = mem

variable {s : CString mem}

theorem returns_mystrstrAny (abi : Abi) (s : CString mem) (needles : List (CString mem)) :
    ∃ found, Loop.Returns (fun fuel => mystrstrAny abi fuel s.addr needles) found ∧
      (found = true ↔ ∃ needle ∈ needles, needle.text <:+: s.text) := by
  induction needles with
  | nil => exact ⟨false, ⟨0, fun _ _ => rfl⟩, by simp⟩
  | cons needle needles ih =>
      rcases ih with ⟨found, ⟨least, hrest⟩, hfound⟩
      rcases exists_mystrstr_forall abi s needle with ⟨p, reads, hrun, hp, -⟩
      have hoccurs := hp.eq_null_iff
      -- fuel for this needle and for the rest
      let enough := max (max s.text.length needle.text.length + 1) least
      have hfirst : ∀ fuel, enough ≤ fuel →
          mystrstr abi mem fuel s.addr needle.addr = some (p, reads) ∧
            mystrstrAny abi fuel s.addr needles = some found := by
        intro fuel hfuel
        exact ⟨hrun fuel (by omega) (by omega), hrest fuel (by omega)⟩
      by_cases hnull : p = NULL
      · refine ⟨found, ⟨enough, ?_⟩, ?_⟩
        · intro fuel hfuel
          rcases hfirst fuel hfuel with ⟨hneedle, hneedles⟩
          show mystrstrAny abi fuel s.addr (needle :: needles) = some found
          rw [mystrstrAny, hneedle]
          dsimp only
          rw [if_neg (not_not.mpr hnull), hneedles]
        · rw [hfound]
          simp [hoccurs.mp hnull]
      · refine ⟨true, ⟨enough, ?_⟩, ?_⟩
        · intro fuel hfuel
          rcases hfirst fuel hfuel with ⟨hneedle, -⟩
          show mystrstrAny abi fuel s.addr (needle :: needles) = some true
          rw [mystrstrAny, hneedle]
          dsimp only
          rw [if_pos hnull]
        · simp [not_not.mp (mt hoccurs.mpr hnull)]

/-- A string is rewritten inside exactly when it has room for the replacement, or none
is needed. -/
theorem rewritesInside_forward_iff {α ρ : Type} {needles : List String} {replacement : String}
    (copy : Literal mem replacement) (old : Memory → α → ρ) (args : α) {found : Bool}
    (hfound : found = true ↔ ContainsAny s needles) :
    RewritesInside s needles replacement old args
        (forward old mem args (if found then [CString.strcpy s.addr copy.string] else [])) ↔
      (ContainsAny s needles → (ofString replacement).length ≤ s.text.length) := by
  cases found with
  | false =>
      have hnot : ¬ ContainsAny s needles := fun h => Bool.false_ne_true (hfound.mpr h)
      refine iff_of_true ?_ fun h => absurd h hnot
      exact ⟨rfl, rfl, by simp [forward], fun h => absurd h hnot, fun _ => ⟨rfl, rfl⟩⟩
  | true =>
      have hcontains : ContainsAny s needles := hfound.mp rfl
      have hroom : (CString.strcpy s.addr copy.string).span.Within s.span ↔
          (ofString replacement).length ≤ s.text.length := by
        rw [CString.strcpy_within_iff, copy.text_eq]
      rw [forall_prop_of_true hcontains, ← hroom]
      constructor
      · intro h
        exact h.inside _ (List.mem_singleton.mpr rfl)
      · intro hwithin
        refine ⟨rfl, rfl, ?_, ?_, fun h => absurd hcontains h⟩
        · intro st hst
          rcases List.mem_singleton.mp hst with rfl
          exact hwithin
        · intro _
          exact ⟨CString.copied copy.string s.addr_ne_zero, rfl, copy.text_eq⟩

/-- A string with a needle that is no shorter than the replacement has room for it. -/
theorem length_le_of_containsAny {needles : List String} {replacement : String}
    (hle : ∀ needle ∈ needles, (ofString replacement).length ≤ (ofString needle).length)
    (h : ContainsAny s needles) : (ofString replacement).length ≤ s.text.length := by
  rcases h with ⟨needle, hmem, hoccurs⟩
  exact (hle needle hmem).trans hoccurs.length_le

end Rewriting

/-! ## The two hooks -/

section Hooks

variable (abi : Abi) {mem : Memory} (lits : Literals mem)

/-- `new_open` returns, and rewrites the path inside the path. -/
def OpenInside (oldOpen : Memory → OpenArgs → Int) (pathname : CString mem) (flags : Int)
    (mode : Nat) : Prop :=
  ∃ r, Loop.Returns (fun fuel => newOpen abi lits fuel oldOpen ⟨pathname.addr, flags, mode⟩) r ∧
    RewritesInside pathname ["magisk", "boot_count", "/su"] "/data/data/local/tmp" oldOpen
      ⟨pathname.addr, flags, mode⟩ r

/-- `new_strstr` returns, and rewrites its second string inside that string. -/
def StrstrInside (oldStrstr : Memory → StrstrArgs → Nat) (str1 str2 : CString mem) : Prop :=
  ∃ r, Loop.Returns (fun fuel => newStrstr abi lits fuel oldStrstr ⟨str1.addr, str2.addr⟩) r ∧
    RewritesInside str2 ["libfingerCore"] "libcttt.so" oldStrstr ⟨str1.addr, str2.addr⟩ r

variable {abi lits}

theorem openInside_iff {oldOpen : Memory → OpenArgs → Int} {pathname : CString mem} {flags : Int}
    {mode : Nat} :
    OpenInside abi lits oldOpen pathname flags mode ↔
      (ContainsAny pathname ["magisk", "boot_count", "/su"] → 20 ≤ pathname.text.length) := by
  let needles := [lits.magisk.string, lits.bootCount.string, lits.su.string]
  rcases returns_mystrstrAny abi pathname needles with ⟨found, hreturns, hfound⟩
  have hcontains : found = true ↔ ContainsAny pathname ["magisk", "boot_count", "/su"] := by
    rw [hfound]
    simp [needles, ContainsAny, lits.magisk.text_eq, lits.bootCount.text_eq, lits.su.text_eq]
  let args : OpenArgs := ⟨pathname.addr, flags, mode⟩
  have hopen : Loop.Returns (fun fuel => newOpen abi lits fuel oldOpen args) (forward oldOpen mem
      args (if found then [CString.strcpy pathname.addr lits.tmp.string] else [])) := by
    simp only [newOpen, ne_eq, args, pathname.addr_ne_zero, not_false_eq_true, if_true]
    exact (hreturns.map _).map _
  have hlength : (ofString "/data/data/local/tmp").length = 20 := by decide
  rw [OpenInside, hopen.exists_iff, rewritesInside_forward_iff lits.tmp oldOpen args hcontains,
    hlength]

/-- The needle of `new_strstr` is longer than its replacement. -/
theorem strstrInside (oldStrstr : Memory → StrstrArgs → Nat) (str1 str2 : CString mem) :
    StrstrInside abi lits oldStrstr str1 str2 := by
  rcases returns_mystrstrAny abi str2 [lits.libfingerCore.string] with ⟨found, hreturns, hfound⟩
  have hcontains : found = true ↔ ContainsAny str2 ["libfingerCore"] := by
    rw [hfound]
    simp [ContainsAny, lits.libfingerCore.text_eq]
  let args : StrstrArgs := ⟨str1.addr, str2.addr⟩
  have hstrstr : Loop.Returns (fun fuel => newStrstr abi lits fuel oldStrstr args)
      (forward oldStrstr mem args
        (if found then [CString.strcpy str2.addr lits.libcttt.string] else [])) :=
    (hreturns.map _).map _
  have hle : ∀ needle ∈ ["libfingerCore"],
      (ofString "libcttt.so").length ≤ (ofString needle).length := by decide
  rw [StrstrInside, hstrstr.exists_iff,
    rewritesInside_forward_iff lits.libcttt oldStrstr args hcontains]
  exact length_le_of_containsAny hle

/-- `new_open` stays inside the path exactly when a path it replaces has the length of
the replacement; `new_strstr` always stays inside its string. -/
theorem rewrites_inside_iff (abi : Abi) {mem : Memory} (lits : Literals mem) :
    (∀ oldOpen (pathname : CString mem) flags mode,
      OpenInside abi lits oldOpen pathname flags mode ↔
        (ContainsAny pathname ["magisk", "boot_count", "/su"] → 20 ≤ pathname.text.length)) ∧
    ∀ oldStrstr (str1 str2 : CString mem), StrstrInside abi lits oldStrstr str1 str2 :=
  ⟨fun _ _ _ _ => openInside_iff, strstrInside⟩

end Hooks

/-- A memory with the constants of the library and, in front of other data, the path
`/su`. -/
def suMem : Memory :=
  applyStores (fun _ => 0xff) [⟨0x1000, ofString "magisk" ++ [0]⟩,
    ⟨0x1010, ofString "boot_count" ++ [0]⟩, ⟨0x1020, ofString "/su" ++ [0]⟩,
    ⟨0x1030, ofString "/data/data/local/tmp" ++ [0]⟩, ⟨0x1050, ofString "libfingerCore" ++ [0]⟩,
    ⟨0x1060, ofString "libcttt.so" ++ [0]⟩, ⟨0x2000, ofString "/su" ++ [0]⟩]

def suLiterals : Literals suMem where
  magisk := ⟨⟨0x1000, ofString "magisk", by decide, by decide, by decide +kernel⟩, rfl⟩
  bootCount := ⟨⟨0x1010, ofString "boot_count", by decide, by decide, by decide +kernel⟩, rfl⟩
  su := ⟨⟨0x1020, ofString "/su", by decide, by decide, by decide +kernel⟩, rfl⟩
  tmp := ⟨⟨0x1030, ofString "/data/data/local/tmp", by decide, by decide, by decide +kernel⟩, rfl⟩
  libfingerCore :=
    ⟨⟨0x1050, ofString "libfingerCore", by decide, by decide, by decide +kernel⟩, rfl⟩
  libcttt := ⟨⟨0x1060, ofString "libcttt.so", by decide, by decide, by decide +kernel⟩, rfl⟩

def suPath : CString suMem := ⟨0x2000, ofString "/su", by decide, by decide, by decide +kernel⟩

/-- Opening `/su` overwrites what stands behind its four bytes. -/
theorem openInside_su :
    ¬ OpenInside .aarch64 suLiterals (fun _ _ => 3) suPath 0 0 ∧ suMem (suPath.addr + 4) = 0xff ∧
    (newOpen .aarch64 suLiterals 20 (fun _ _ => 3) ⟨suPath.addr, 0, 0⟩).map
      (fun r => r.mem (suPath.addr + 4)) = some 97 := by
  refine ⟨?_, by decide +kernel, by decide +kernel⟩
  intro hinside
  have hsu : ContainsAny suPath ["magisk", "boot_count", "/su"] :=
    ⟨"/su", by decide, List.infix_rfl⟩
  have hlength := openInside_iff.mp hinside hsu
  exact absurd hlength (by decide)

end Yahfa
