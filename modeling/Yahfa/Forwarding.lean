import Yahfa.Xhook
import Yahfa.Base.Trace

/-!
# Where calls through redirected slots go

Whatever a refresh finds, all it does to memory and to the pointers of the hook
functions is a sequence of redirections (`start_redirects`). A redirection saves
what the slot held in the one pointer that all slots of a symbol share, and then
stores to the slot, which may fault. So a call through any of them is forwarded to
what the slot saved last held (`callThrough_lastSaved`). As long as every store goes
through, this is the slot redirected last (`start_forwards`), and it need not be the
one called through (`start_not_transparent`).
-/

namespace Yahfa

open Bytes

variable {abi : Abi} {env : Env} {hooks : Hooks}

/-! ## A refresh is a sequence of redirections -/

/-- Registered hooks redirect slots, one after another, except those whose store
faults. -/
inductive SlotRedirects (abi : Abi) (his : List HookInfo) : Proc → Proc → Prop
  | refl (p : Proc) : SlotRedirects abi his p p
  | tail {p p' : Proc} {hi : HookInfo} {addr : Nat} (h : SlotRedirects abi his p p')
      (hhi : hi ∈ his) (hne : readAddr abi p'.mem addr ≠ hi.newFunc) :
      SlotRedirects abi his p (p'.redirect abi addr hi.newFunc hi.oldFunc)
  | fault {p p' : Proc} {hi : HookInfo} {addr : Nat} (h : SlotRedirects abi his p p')
      (hhi : hi ∈ his) (hne : readAddr abi p'.mem addr ≠ hi.newFunc) :
      SlotRedirects abi his p (p'.saveOld abi addr hi.newFunc hi.oldFunc false)

section SlotRedirects

variable {his : List HookInfo} {hi : HookInfo} {p p' q : Proc}

theorem SlotRedirects.trans (h : SlotRedirects abi his p p') (h' : SlotRedirects abi his p' q) :
    SlotRedirects abi his p q := by
  induction h' with
  | refl => exact h
  | tail _ hhi hne ih => exact ih.tail hhi hne
  | fault _ hhi hne ih => exact ih.fault hhi hne

theorem xhElfReplaceFunction_redirects (env : Env) (self : Elf) (hhi : hi ∈ his) (addr : Nat)
    (p : Proc) :
    SlotRedirects abi his p (xhElfReplaceFunction abi env self hi.newFunc hi.oldFunc addr p).2 := by
  unfold xhElfReplaceFunction
  by_cases hread : env.slotReadable addr = true
  · rw [if_neg (not_not_intro hread)]
    by_cases hne : readAddr abi p.mem addr = hi.newFunc
    · rw [if_pos hne]
      exact .refl p
    · rw [if_neg hne]
      dsimp only
      split_ifs
      -- a protection that cannot be read or changed leaves the slot alone
      all_goals first
        | exact .refl p
        | exact (SlotRedirects.refl p).fault hhi hne
        | exact (SlotRedirects.refl p).tail hhi hne
  · rw [if_pos hread]
    exact .refl p

theorem xhElfFindAndReplaceFunc_redirects (env : Env) (self : Elf) (hhi : hi ∈ his)
    (isPlt : Bool) (symidx : Nat) (rel : Reloc) (p : Proc) :
    SlotRedirects abi his p
      (xhElfFindAndReplaceFunc abi env self hi.newFunc hi.oldFunc isPlt symidx rel p).2.2 := by
  unfold xhElfFindAndReplaceFunc
  split_ifs
  · exact .refl p
  · exact .refl p
  · exact .refl p
  · dsimp only
    split_ifs
    · exact .refl p
    · exact xhElfReplaceFunction_redirects env self hhi _ p

theorem hookRelplt_redirects (env : Env) (self : Elf) (hhi : hi ∈ his) (symidx : Nat)
    (rels : List Reloc) (p : Proc) :
    SlotRedirects abi his p (hookRelplt abi env self hi.newFunc hi.oldFunc symidx rels p).2 := by
  induction rels generalizing p with
  | nil => exact .refl p
  | cons rel rels ih =>
      have hrel : SlotRedirects abi his p _ :=
        xhElfFindAndReplaceFunc_redirects env self hhi true symidx rel p
      rw [hookRelplt]
      dsimp only
      split_ifs
      · exact hrel
      · exact hrel
      · exact hrel.trans (ih _)

theorem hookReldyn_redirects (env : Env) (self : Elf) (hhi : hi ∈ his) (symidx : Nat)
    (rels : List Reloc) (p : Proc) :
    SlotRedirects abi his p (hookReldyn abi env self hi.newFunc hi.oldFunc symidx rels p).2 := by
  induction rels generalizing p with
  | nil => exact .refl p
  | cons rel rels ih =>
      have hrel : SlotRedirects abi his p _ :=
        xhElfFindAndReplaceFunc_redirects env self hhi false symidx rel p
      rw [hookReldyn]
      dsimp only
      split_ifs
      · exact hrel
      · exact hrel.trans (ih _)

theorem xhElfHook_redirects (env : Env) (self : Elf) (hhi : hi ∈ his) (symbol : String)
    (p : Proc) :
    SlotRedirects abi his p (xhElfHook abi env self hi.newFunc hi.oldFunc symbol p).2 := by
  unfold xhElfHook
  split_ifs
  · exact .refl p
  · cases self.findSymidxByName symbol with
    | none => exact .refl p
    | some symidx =>
        have hplt : SlotRedirects abi his p _ :=
          hookRelplt_redirects env self hhi symidx self.relplt p
        have hdyn := hplt.trans (hookReldyn_redirects env self hhi symidx self.reldyn _)
        have handroid := hdyn.trans (hookReldyn_redirects env self hhi symidx self.relandroid _)
        dsimp only
        split_ifs
        · exact hplt
        · exact hdyn
        · exact handroid

theorem hookRegistered_redirects (env : Env) (ignoreInfo : List IgnoreInfo) (pathname : String)
    (elf : Elf) (todo : List HookInfo) (htodo : ∀ hi ∈ todo, hi ∈ his) (p : Proc) :
    SlotRedirects abi his p (hookRegistered abi env ignoreInfo pathname elf todo p).2 := by
  induction todo generalizing p with
  | nil => exact .refl p
  | cons hi todo ih =>
      have hrest := ih fun h hh => htodo h (List.mem_cons_of_mem _ hh)
      have hhi : hi ∈ his := htodo hi List.mem_cons_self
      rw [hookRegistered]
      split_ifs
      · cases checkIgnore pathname hi.symbol ignoreInfo with
        | all => exact .refl p
        | symbol => exact hrest p
        | no =>
            have hhook : SlotRedirects abi his p _ := xhElfHook_redirects env elf hhi hi.symbol p
            cases hr : xhElfHook abi env elf hi.newFunc hi.oldFunc hi.symbol p with
            | mk ended p' =>
                rw [hr] at hhook
                cases ended with
                | segv => exact hhook
                | ret r => exact hhook.trans (hrest p')
      · exact hrest p

theorem xhCoreHook_redirects (env : Env) (c : XhCore) (mi : MapInfo) (p : Proc) :
    SlotRedirects abi c.hookInfo p (xhCoreHook abi env c mi p) := by
  unfold xhCoreHook xhCoreHookImpl
  cases env.elfInit mi.baseAddr mi.pathname with
  | none => exact .refl p
  | some elf => exact hookRegistered_redirects env _ _ elf c.hookInfo (fun _ hh => hh) p

theorem refreshLibrary_redirects (env : Env) (c : XhCore) (baseAddr : Nat) (pathname : String)
    (st : Refresh) :
    SlotRedirects abi c.hookInfo st.proc (refreshLibrary abi env c baseAddr pathname st).proc := by
  unfold refreshLibrary
  dsimp only
  split_ifs
  · exact .refl _
  · exact .refl _
  · exact .refl _
  · exact xhCoreHook_redirects env c _ st.proc

theorem refreshLine_redirects (env : Env) (c : XhCore) (st : Refresh) (line : MapLine) :
    SlotRedirects abi c.hookInfo st.proc (refreshLine abi env c st line).proc := by
  unfold refreshLine
  dsimp only
  split_ifs
  all_goals first
    | exact .refl _
    | exact refreshLibrary_redirects env c _ _ st

theorem foldl_refreshLine_redirects (env : Env) (c : XhCore) (lines : List MapLine)
    (st : Refresh) :
    SlotRedirects abi c.hookInfo st.proc (lines.foldl (refreshLine abi env c) st).proc := by
  induction lines generalizing st with
  | nil => exact .refl _
  | cons line lines ih => exact (refreshLine_redirects env c st line).trans (ih _)

theorem xhCoreRefreshImpl_redirects (abi : Abi) (env : Env) (s : Process) :
    SlotRedirects abi s.core.hookInfo s.proc (xhCoreRefreshImpl abi env s).proc ∧
      (xhCoreRefreshImpl abi env s).core.hookInfo = s.core.hookInfo := by
  unfold xhCoreRefreshImpl
  cases env.maps with
  | none => exact ⟨.refl _, rfl⟩
  | some lines =>
      let st : Refresh := ⟨0, false, 0, "", s.core.mapInfo, [], s.proc⟩
      exact ⟨foldl_refreshLine_redirects env s.core lines st, rfl⟩

end SlotRedirects

/-! ## What is registered -/

/-- The hook function that calls on through a pointer. -/
def Hooks.newFunc (hooks : Hooks) : OldFunc → Nat
  | .oldFork => hooks.newFork
  | .oldIsMagicValid => hooks.newIsMagicValid

/-- Every registered function comes with its own pointer. -/
def Registered (hooks : Hooks) (c : XhCore) : Prop :=
  ∀ hi ∈ c.hookInfo, ∃ o, hi.oldFunc = some o ∧ hi.newFunc = hooks.newFunc o

theorem Registered.register {c : XhCore} (h : Registered hooks c) (regex : String → Bool)
    (symbol : String) (o : OldFunc) :
    Registered hooks (xhCoreRegister (some regex) symbol (hooks.newFunc o) (some o) c).2 := by
  unfold xhCoreRegister
  dsimp only
  split_ifs
  · exact h
  · exact h
  · intro hi hhi
    rcases List.mem_append.mp hhi with hold | hnew
    · exact h hi hold
    · rcases List.mem_singleton.mp hnew with rfl
      exact ⟨o, rfl, rfl⟩

theorem xhCoreRefresh_redirects (abi : Abi) (env : Env) (s : Process) :
    SlotRedirects abi s.core.hookInfo s.proc (xhCoreRefresh abi env s).2.proc ∧
      (xhCoreRefresh abi env s).2.core.hookInfo = s.core.hookInfo := by
  have hinit : (xhCoreInitOnce env s.core).hookInfo = s.core.hookInfo := by
    unfold xhCoreInitOnce
    split_ifs <;> rfl
  unfold xhCoreRefresh
  dsimp only
  split_ifs
  · rcases xhCoreRefreshImpl_redirects abi env { s with core := xhCoreInitOnce env s.core } with
      ⟨hredirects, hhooks⟩
    rw [hinit] at hredirects hhooks
    exact ⟨hredirects, hhooks⟩
  · exact ⟨.refl _, hinit⟩

/-- What a `start` does: it may register the two hooks, and registered hooks
redirect slots. -/
theorem start_redirects (abi : Abi) (env : Env) {s : Process} (h : Registered hooks s.core) :
    Registered hooks (start abi hooks env s).core ∧
      SlotRedirects abi (start abi hooks env s).core.hookInfo s.proc (start abi hooks env s).proc := by
  have hfork := h.register soRegex "fork" .oldFork
  have hboth := hfork.register soRegex "_ZN3art13DexFileLoader12IsMagicValidEj" .oldIsMagicValid
  let s' : Process := { s with core := (xhCoreRegister (some soRegex)
    "_ZN3art13DexFileLoader12IsMagicValidEj" hooks.newIsMagicValid (some .oldIsMagicValid)
    (xhCoreRegister (some soRegex) "fork" hooks.newFork (some .oldFork) s.core).2).2 }
  rcases xhCoreRefresh_redirects abi env s' with ⟨hredirects, hhooks⟩
  change Registered hooks (xhCoreRefresh abi env s').2.core ∧
    SlotRedirects abi (xhCoreRefresh abi env s').2.core.hookInfo s.proc
      (xhCoreRefresh abi env s').2.proc
  rw [Registered, hhooks]
  exact ⟨hboth, hredirects⟩

/-! ## The pointer all slots of a symbol share -/

/-- The slot saved last for the function that calls through a pointer. -/
def Proc.lastSaved (p : Proc) (o : OldFunc) : Option Redirection :=
  p.saved.find? fun r => r.oldFunc = some o

/-- The slots redirected so far, newest first. -/
def Proc.redirected (p : Proc) : List Redirection := p.saved.filter Redirection.stored

/-- Every store to a slot has gone through. -/
def Proc.AllStored (p : Proc) : Prop := ∀ r ∈ p.saved, r.stored = true

instance (p : Proc) : Decidable p.AllStored :=
  inferInstanceAs (Decidable (∀ r ∈ p.saved, r.stored = true))

/-- The slot redirected last for the function that calls through a pointer. -/
def Proc.latest (p : Proc) (o : OldFunc) : Option Redirection :=
  p.redirected.find? fun r => r.oldFunc = some o

/-- What a slot held before it was last made to point to that function. -/
def Proc.held (p : Proc) (o : OldFunc) (slot : Nat) : Option Nat :=
  (p.redirected.find? fun r => r.oldFunc = some o ∧ r.slot = slot).map Redirection.oldAddr

theorem Proc.AllStored.redirected_eq {p : Proc} (h : p.AllStored) : p.redirected = p.saved :=
  List.filter_eq_self.mpr h

/-- A pointer holds what the slot saved last held, null before any, and that is never
the function that calls through it. -/
structure Forwards (hooks : Hooks) (p : Proc) : Prop where
  old : ∀ o, p.old o = ((p.lastSaved o).map Redirection.oldAddr).getD NULL
  ne : ∀ r ∈ p.saved, ∀ o, r.oldFunc = some o → r.oldAddr ≠ hooks.newFunc o

theorem Forwards.saveOld {p : Proc} (h : Forwards hooks p) {addr : Nat} {o : OldFunc}
    (hne : readAddr abi p.mem addr ≠ hooks.newFunc o) (stored : Bool) :
    Forwards hooks (p.saveOld abi addr (hooks.newFunc o) (some o) stored) := by
  constructor
  · intro q
    by_cases hq : q = o
    · subst hq
      simp [Proc.saveOld, Proc.lastSaved]
    · -- the pointer of the other hook function
      have hold := h.old q
      simpa [Proc.saveOld, Proc.lastSaved, Function.update_of_ne hq, Ne.symm hq] using hold
  · intro r hr q hrq
    rcases List.mem_cons.mp hr with rfl | hold
    · obtain rfl : o = q := Option.some.inj hrq
      exact hne
    · exact h.ne r hold q hrq

/-- The store to the slot changes neither the pointers nor the record. -/
theorem Forwards.redirect {p : Proc} (h : Forwards hooks p) {addr : Nat} {o : OldFunc}
    (hne : readAddr abi p.mem addr ≠ hooks.newFunc o) :
    Forwards hooks (p.redirect abi addr (hooks.newFunc o) (some o)) where
  old := (h.saveOld hne true).old
  ne := (h.saveOld hne true).ne

theorem Forwards.redirects {his : List HookInfo} {p p' : Proc} (h : Forwards hooks p)
    (hhis : ∀ hi ∈ his, ∃ o, hi.oldFunc = some o ∧ hi.newFunc = hooks.newFunc o)
    (hredirects : SlotRedirects abi his p p') : Forwards hooks p' := by
  induction hredirects with
  | refl => exact h
  | tail _ hhi hne ih =>
      rcases hhis _ hhi with ⟨o, hold, hnew⟩
      rw [hold, hnew]
      exact ih.redirect (hnew ▸ hne)
  | fault _ hhi hne ih =>
      rcases hhis _ hhi with ⟨o, hold, hnew⟩
      rw [hold, hnew]
      exact ih.saveOld (hnew ▸ hne) false

/-! ## Whole runs -/

/-- What can happen to the process: a `start`, whatever it finds, or the rest of
the process changing memory. -/
def XhookNext (abi : Abi) (hooks : Hooks) : Trace.Action Process := fun s s' =>
  (∃ env, s' = start abi hooks env s) ∨
    ∃ mem, s' = { s with proc := { s.proc with mem := mem } }

/-- The states of the process the library lives in. -/
def XhookReachable (abi : Abi) (hooks : Hooks) : Trace.StatePred Process :=
  Trace.Reachable (fun s => ∃ mem, s = .initial mem) (XhookNext abi hooks)

/-- The invariant of a run. -/
def XhookInv (hooks : Hooks) : Trace.StatePred Process := fun s =>
  Registered hooks s.core ∧ Forwards hooks s.proc

theorem reachable_forwards {s : Process} (h : XhookReachable abi hooks s) : XhookInv hooks s := by
  suffices hrule : ∀ s, XhookReachable abi hooks s → XhookInv hooks s from hrule s h
  refine Trace.init_invariant ?_ ?_
  · rintro _ ⟨mem, rfl⟩
    refine ⟨?_, ?_, ?_⟩ <;> simp [Registered, Process.initial, Proc.lastSaved]
  · rintro s _ (⟨env, rfl⟩ | ⟨mem, rfl⟩) ⟨hreg, hfwd⟩
    · rcases start_redirects abi env hreg with ⟨hreg', hredirects⟩
      exact ⟨hreg', hfwd.redirects hreg' hredirects⟩
    · -- neither the pointers nor the record of the slots are memory
      exact ⟨hreg, hfwd.old, hfwd.ne⟩

/-- A call through a slot that points to a hook function goes where that
function's pointer says. -/
theorem callThrough_newFunc {p : Proc} {o : OldFunc} {slot : Nat}
    (h : readAddr abi p.mem slot = hooks.newFunc o) : callThrough abi hooks p slot = p.old o := by
  unfold callThrough
  dsimp only
  cases o with
  | oldFork => exact if_pos h
  | oldIsMagicValid =>
      have hne : readAddr abi p.mem slot ≠ hooks.newFork := fun hfork => hooks.ne (hfork ▸ h)
      rw [if_neg hne]
      exact if_pos h

/-- Every call through a redirected slot reaches what this slot held. -/
def Transparent (abi : Abi) (hooks : Hooks) (p : Proc) : Prop :=
  ∀ o slot v, p.held o slot = some v → readAddr abi p.mem slot = hooks.newFunc o →
    callThrough abi hooks p slot = v ∧ (v ≠ NULL → callThrough abi hooks p slot ≠ NULL)

/-- In every reachable state, a call through a slot that points to a hook function, one
for which some slot has been saved, is forwarded to what the slot saved last held, and
not to the hook function again. -/
theorem callThrough_lastSaved {s : Process} (h : XhookReachable abi hooks s) {o : OldFunc}
    {slot : Nat} (hsaved : ∃ r ∈ s.proc.saved, r.oldFunc = some o)
    (hslot : readAddr abi s.proc.mem slot = hooks.newFunc o) :
    ∃ r ∈ s.proc.saved, r.oldFunc = some o ∧ s.proc.lastSaved o = some r ∧
      callThrough abi hooks s.proc slot = r.oldAddr ∧ r.oldAddr ≠ hooks.newFunc o := by
  rcases reachable_forwards h with ⟨-, hfwd⟩
  have hsome : (s.proc.lastSaved o).isSome := by
    rcases hsaved with ⟨r, hmem, hkind⟩
    exact List.find?_isSome.mpr ⟨r, hmem, by simpa using hkind⟩
  rcases Option.isSome_iff_exists.mp hsome with ⟨r, hr⟩
  have hmem : r ∈ s.proc.saved := List.mem_of_find?_eq_some hr
  have hkind : r.oldFunc = some o := by simpa using List.find?_some hr
  have hold : s.proc.old o = r.oldAddr := by
    rw [hfwd.old o, hr]
    rfl
  exact ⟨r, hmem, hkind, hr, (callThrough_newFunc hslot).trans hold, hfwd.ne r hmem o hkind⟩

/-- In every reachable state before which every store to a slot has gone through, a call
through a redirected slot is forwarded to what the slot of its symbol redirected last
held, and not to the hook function again; if all slots of the symbol held one address,
to that one. -/
theorem start_forwards (abi : Abi) (hooks : Hooks) {s : Process}
    (h : XhookReachable abi hooks s) (hstored : s.proc.AllStored) {o : OldFunc} {slot v : Nat}
    (hheld : s.proc.held o slot = some v)
    (hslot : readAddr abi s.proc.mem slot = hooks.newFunc o) :
    (∃ r, s.proc.latest o = some r ∧ callThrough abi hooks s.proc slot = r.oldAddr) ∧
    callThrough abi hooks s.proc slot ≠ hooks.newFunc o ∧
    ((∀ r ∈ s.proc.redirected, r.oldFunc = some o → r.oldAddr = v) →
      callThrough abi hooks s.proc slot = v) := by
  -- the slot itself has been redirected, so there is a latest one
  have hsaved : ∃ r ∈ s.proc.saved, r.oldFunc = some o := by
    rcases Option.map_eq_some_iff.mp hheld with ⟨r, hr, -⟩
    have hmem := List.mem_of_find?_eq_some hr
    have hkind := List.find?_some hr
    simp only [decide_eq_true_eq] at hkind
    exact ⟨r, hstored.redirected_eq ▸ hmem, hkind.1⟩
  rcases callThrough_lastSaved h hsaved hslot with ⟨r, hmem, hkind, hlast, hcall, hne⟩
  rw [← hstored.redirected_eq] at hmem
  refine ⟨⟨r, ?_, hcall⟩, hcall ▸ hne, fun hall => hcall.trans (hall r hmem hkind)⟩
  rw [Proc.latest, hstored.redirected_eq]
  exact hlast

/-- Two libraries that import `fork`; every change of protection and every store
succeeds. -/
def twoLibraries : Env where
  sigactionOk := true
  maps := some [⟨0x10000, true, false, true, true, 0, "/system/lib/liba.so"⟩,
    ⟨0x20000, true, false, true, true, 0, "/system/lib/libb.so"⟩]
  checkElfHeader _ _ := 0
  elfInit baseAddr pathname := some
    { pathname := pathname, baseAddr := baseAddr, biasAddr := baseAddr
      relplt := [⟨0x100, 1, .jumpSlot⟩], reldyn := [], relandroid := []
      findSymidxByName := fun symbol => if symbol = "fork" then some 1 else none }
  getAddrProtect _ _ := (0, needProt)
  setAddrProtect _ _ := 0
  slotReadable _ := true
  slotWritable _ := true

/-- The hook functions of the example. -/
def exampleHooks : Hooks := ⟨0x5000, 0x6000, by decide, by decide, by decide⟩

/-- The process after one `start`: the slot of the first library held 0x1000, the
slot of the second `v`. -/
def startedWith (v : Nat) : Process :=
  start .i386 exampleHooks twoLibraries (.initial
    (writeAddr .i386 (writeAddr .i386 (fun _ => 0) 0x10100 0x1000) 0x20100 v))

theorem startedWith_reachable (v : Nat) : XhookReachable .i386 exampleHooks (startedWith v) :=
  .step (.init ⟨_, rfl⟩) (Or.inl ⟨twoLibraries, rfl⟩)

theorem start_forwards_two :
    (∃ r, (startedWith 0x2000).proc.latest .oldFork = some r ∧
      callThrough .i386 exampleHooks (startedWith 0x2000).proc 0x10100 = r.oldAddr) ∧
    callThrough .i386 exampleHooks (startedWith 0x2000).proc 0x10100 ≠ 0x5000 := by
  have hheld : (startedWith 0x2000).proc.held .oldFork 0x10100 = some 0x1000 := by decide +kernel
  have hslot : readAddr .i386 (startedWith 0x2000).proc.mem 0x10100 = 0x5000 := by decide +kernel
  have hforwards := start_forwards .i386 exampleHooks (startedWith_reachable 0x2000)
    (by decide +kernel) hheld hslot
  exact ⟨hforwards.1, hforwards.2.1⟩

/-- A call through the slot of the first library goes to what the slot of the
second held, here null. -/
theorem start_not_transparent :
    ¬ ∀ s, XhookReachable .i386 exampleHooks s → s.proc.AllStored →
      Transparent .i386 exampleHooks s.proc := by
  intro htransparent
  have hcall := htransparent _ (startedWith_reachable NULL) (by decide +kernel) .oldFork 0x10100
    0x1000 (by decide +kernel) (by decide +kernel)
  have hnull : callThrough .i386 exampleHooks (startedWith NULL).proc 0x10100 = NULL := by
    decide +kernel
  exact hcall.2 (by decide) hnull

end Yahfa
